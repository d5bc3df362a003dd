import ArtifactAtlas.Json.Shape

/-!
# Formats

A format relates a type to its JSON documents: the shape they have, how a value
is taken out of one and how it is put into one.  A text is read in a format by
looking for the first fault against the shape; a text without one has a value.
-/

namespace ArtifactAtlas.Json

/-! ## The value of a document -/

/-- The value of a number; the unreadable ones are never asked for. -/
def numberValue (source : List Char) : Json :=
  match readNumber source with
  | .ok n => .number n
  | .error _ => .null

def textValue (source : List Char) : String :=
  match readText source with
  | .ok (chars, _) => String.ofList chars
  | .error _ => ""

mutual

def Document.value : Document → Json
  | .null => .null
  | .bool b => .bool b
  | .number source => numberValue source
  | .text source => .string (textValue source)
  | .array items => .array items.values
  | .object members => .object (members.values [])
  | .broken _ => .null

def Items.values : Items → List Json
  | .item value rest => value.value :: rest.values
  | _ => []

/-- The members after `before`: a repeated name keeps its place and takes its last value. -/
def Members.values (before : List (String × Json)) : Members → List (String × Json)
  | .member name value rest => rest.values (Entries.put (textValue name) value.value before)
  | _ => before

end

structure Format (α : Type) where
  shape : Shape
  decode : Json → Option α
  encode : α → Json

namespace Format

/-- Reads a text; the first fault wins. -/
def read {α : Type} (format : Format α) (text : String) : Except Fault α :=
  let (document, complete) := scan text.toList
  match document.fault? 0 format.shape with
  | some fault => .error fault
  | none =>
      if complete then
        match format.decode document.value with
        | some value => .ok value
        | none => .error .mismatched
      else .error .malformed

def any : Format Json := ⟨.any, some, id⟩

def text : Format String := ⟨.text, string?, .string⟩

def natural : Format Nat := ⟨.natural, natural?, ofNat⟩

def optional {α : Type} (format : Format α) : Format (Option α) where
  shape := .optional format.shape
  decode
    | .null => some none
    | value => (format.decode value).map some
  encode
    | none => .null
    | some value => format.encode value

def list {α : Type} (format : Format α) : Format (List α) where
  shape := .list format.shape
  decode
    | .array items => items.mapM format.decode
    | _ => none
  encode items := .array (items.map format.encode)

end Format

def parse (text : String) : Except Fault Json :=
  Format.any.read text

end ArtifactAtlas.Json
