import ArtifactAtlas.Json.Document

/-!
# Shapes of documents

A shape says what a document has to be.  `fault?` compares the two in the order
of the text and reports the first thing that is wrong, be it in the grammar or
in the shape; a fault that comes later is never seen.
-/

namespace ArtifactAtlas.Json

structure FieldName where
  name : String
  /-- A second name under which the field may be given. -/
  otherName : Option String
  required : Bool
  deriving DecidableEq, Repr

namespace FieldName

def accepts (field : FieldName) (name : String) : Bool :=
  field.name = name || field.otherName = some name

end FieldName

inductive Shape where
  /-- Nobody reads the document; it only has to be skipped. -/
  | ignored
  | any
  | text
  | natural
  | optional (shape : Shape)
  | list (item : Shape)
  | mapping (item : Shape)
  /-- An object whose names are natural numbers. -/
  | numbered (item : Shape)
  /-- An object with these fields, or an array of their values in this order. -/
  | record (fields : List (FieldName × Shape))

namespace Shape

def isNullable : Shape → Bool
  | ignored | any | optional _ => true
  | _ => false

/-- The shape of what is not `null`. -/
def present : Shape → Shape
  | optional shape => shape
  | shape => shape

end Shape

/-- Containers may be nested this deep. -/
def greatestDepth : Nat := 127

/-- The fault of a result, if it is one. -/
def faultOf? {α : Type} : Except Fault α → Option Fault
  | .error fault => some fault
  | .ok _ => none

/-- What keeps a name from being a natural number, from after its opening quote. -/
def numberNameFault? (name : List Char) : Option Fault :=
  match name with
  | [] => some .malformed
  | c :: _ =>
      if startsNumber c then
        match readNumberText name with
        | .error fault => some fault
        | .ok (written, rest) =>
            match written.value?, rest with
            | none, _ => some .malformed
            | some (.natural _), '"' :: _ => none
            | some (.natural _), _ => some .malformed
            | some _, _ => some .mismatched
      else some .malformed

/-- The fault of reading a number as `shape`. -/
def numberFault? (shape : Shape) (source : List Char) : Option Fault :=
  match shape with
  | .ignored => faultOf? (skipNumber source)
  | shape =>
      match readNumber source, shape.present with
      | .error fault, _ => some fault
      | .ok _, .any => none
      | .ok (.natural _), .natural => none
      | .ok _, _ => some .mismatched

/-- The fault of reading a quoted text as `shape`. -/
def textFault? (shape : Shape) (source : List Char) : Option Fault :=
  match shape with
  | .ignored => faultOf? (skipText source)
  | shape =>
      match readText source, shape.present with
      | .error fault, _ => some fault
      | .ok _, .any => none
      | .ok _, .text => none
      | .ok _, _ => some .mismatched

/-- The names that an object has for the fields read so far. -/
abbrev Seen := List String

def isMissing (seen : Seen) (field : FieldName × Shape) : Bool :=
  field.1.required && !seen.contains field.1.name

/-- The fault of ending a record without its remaining fields. -/
def missingFault? (seen : Seen) (fields : List (FieldName × Shape)) : Option Fault :=
  if fields.any (isMissing seen) then some .mismatched else none

/-- The fault of one container too many. -/
def depthFault? (depth : Nat) : Option Fault :=
  if depth < greatestDepth then none else some .malformed

mutual

/-- The first fault of a document, inside so many containers, as `shape`. -/
def Document.fault? (depth : Nat) (shape : Shape) : Document → Option Fault
  | .broken fault => some fault
  | .null => if shape.isNullable then none else some .mismatched
  | .bool _ =>
      match shape.present with
      | .ignored | .any => none
      | _ => some .mismatched
  | .number source => numberFault? shape source
  | .text source => textFault? shape source
  | .array items =>
      match shape.present with
      | .ignored => items.faultEach? depth .ignored
      | .any => (depthFault? depth).or (items.faultEach? (depth + 1) .any)
      | .list item => (depthFault? depth).or (items.faultEach? (depth + 1) item)
      | .record fields => (depthFault? depth).or (items.faultFields? (depth + 1) fields)
      | _ => some .mismatched
  | .object members =>
      match shape.present with
      | .ignored => members.faultEach? depth .ignored
      | .any => (depthFault? depth).or (members.faultEach? (depth + 1) .any)
      | .mapping item => (depthFault? depth).or (members.faultEach? (depth + 1) item)
      | .numbered item => (depthFault? depth).or (members.faultNumbered? (depth + 1) item)
      | .record fields => (depthFault? depth).or (members.faultFields? (depth + 1) fields [])
      | _ => some .mismatched

/-- The first fault of items that all have one shape. -/
def Items.faultEach? (depth : Nat) (shape : Shape) : Items → Option Fault
  | .close => none
  | .broken fault => some fault
  | .item value rest => (value.fault? depth shape).or (rest.faultEach? depth shape)

/-- The first fault of items that are the fields of a record in order. -/
def Items.faultFields? (depth : Nat) (fields : List (FieldName × Shape)) :
    Items → Option Fault
  | .close => missingFault? [] fields
  | .broken fault => some fault
  | .item value rest =>
      match fields with
      | [] => some .malformed
      | (_, shape) :: fields => (value.fault? depth shape).or (rest.faultFields? depth fields)

/-- The first fault of members that all have one shape. -/
def Members.faultEach? (depth : Nat) (shape : Shape) : Members → Option Fault
  | .close => none
  | .broken fault => some fault
  | .member name value rest =>
      ((textFault? (match shape with | .ignored => .ignored | _ => .text) name).or
        (value.fault? depth shape)).or (rest.faultEach? depth shape)

/-- The first fault of members named by natural numbers. -/
def Members.faultNumbered? (depth : Nat) (shape : Shape) : Members → Option Fault
  | .close => none
  | .broken fault => some fault
  | .member name value rest =>
      ((numberNameFault? name).or (value.fault? depth shape)).or
        (rest.faultNumbered? depth shape)

/-- The first fault of members that are the fields of a record, in any order. -/
def Members.faultFields? (depth : Nat) (fields : List (FieldName × Shape)) (seen : Seen) :
    Members → Option Fault
  | .close => missingFault? seen fields
  | .broken fault => some fault
  | .member name value rest =>
      match readText name with
      | .error fault => some fault
      | .ok (chars, _) =>
          match fields.find? (·.1.accepts (String.ofList chars)) with
          | none =>
              (value.fault? depth .ignored).or (rest.faultFields? depth fields seen)
          | some (field, shape) =>
              if seen.contains field.name then some .mismatched
              else
                (value.fault? depth shape).or
                  (rest.faultFields? depth fields (field.name :: seen))

end

end ArtifactAtlas.Json
