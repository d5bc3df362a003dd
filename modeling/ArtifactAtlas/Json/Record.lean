import ArtifactAtlas.Json.Format

/-!
# Record formats

The document of a record is an object with a member for each field, or an array
of the fields' values in order.  A record format is put together field by field:
it starts from the constructor of the record and ends when every argument of the
constructor has its field.
-/

namespace ArtifactAtlas.Json

/-! ## Fields -/

/-- How one field is read and written; no value means that there is no such member. -/
structure FieldFormat (β : Type) where
  name : FieldName
  shape : Shape
  decode : Option Json → Option β
  encode : β → Option Json

namespace FieldFormat

variable {β : Type}

/-- A field that must be there. -/
def required (name : String) (format : Format β) : FieldFormat β where
  name := ⟨name, none, true⟩
  shape := format.shape
  decode slot := slot.bind format.decode
  encode value := some (format.encode value)

/-- A field that stands for `absent` when it is missing, but is always written. -/
def defaulted (name : String) (absent : β) (format : Format β) : FieldFormat β where
  name := ⟨name, none, false⟩
  shape := format.shape
  decode
    | none => some absent
    | some value => format.decode value
  encode value := some (format.encode value)

/-- A field that is written only when there is a value; `null` is none. -/
def omittable (name : String) (format : Format β) : FieldFormat (Option β) where
  name := ⟨name, none, false⟩
  shape := .optional format.shape
  decode
    | none => some none
    | some value => format.optional.decode value
  encode value := value.map format.encode

/-- A field that holds any value and is left out for `null`. -/
def opaqueValue (name : String) : FieldFormat Json where
  name := ⟨name, none, false⟩
  shape := .any
  decode slot := some (slot.getD .null)
  encode value := if value.isNull then none else some value

/-- The same field with a second name to read it under. -/
def orNamed (field : FieldFormat β) (other : String) : FieldFormat β :=
  { field with name := { field.name with otherName := some other } }

end FieldFormat

/-! ## Reading the fields of a document -/

/-- The value that an object has for a field: at most one, and one if it is required. -/
def slot? (members : List (String × Json)) (field : FieldName) : Option (Option Json) :=
  match members.filter fun member => field.accepts member.1 with
  | [] => if field.required then none else some none
  | [member] => some (some member.2)
  | _ => none

/-- The values of fields given in order; the last ones may be missing. -/
def positional? : List FieldName → List Json → Option (List (Option Json))
  | [], [] => some []
  | [], _ :: _ => none
  | field :: fields, [] =>
      if field.required then none else (positional? fields []).map (none :: ·)
  | _ :: fields, value :: values => (positional? fields values).map (some value :: ·)

/-- The values of a record's fields, one for each, from an object or an array. -/
def slots? (fields : List FieldName) : Json → Option (List (Option Json))
  | .object members => fields.mapM (slot? members)
  | .array items => positional? fields items
  | _ => none

/-! ## Records -/

/-- The fields of a `σ`, as far as they make up an `α`. -/
structure RecordFormat (σ α : Type) where
  fields : List (FieldName × Shape)
  /-- Takes the values of these fields off the front. -/
  decode : List (Option Json) → Option (α × List (Option Json))
  encode : σ → List (String × Json)

namespace RecordFormat

variable {σ α β : Type}

def start (make : α) : RecordFormat σ α where
  fields := []
  decode slots := some (make, slots)
  encode _ := []

/-- One more field, which is the next argument. -/
def field (format : RecordFormat σ (β → α)) (field : FieldFormat β) (get : σ → β) :
    RecordFormat σ α where
  fields := format.fields ++ [(field.name, field.shape)]
  decode slots := do
    match ← format.decode slots with
    | (_, []) => none
    | (make, slot :: rest) => return (make (← field.decode slot), rest)
  encode record :=
    format.encode record ++ ((field.encode (get record)).map (field.name.name, ·)).toList

def complete (format : RecordFormat σ σ) : Format σ where
  shape := .record format.fields
  decode document := do
    let slots ← slots? (format.fields.map Prod.fst) document
    return (← format.decode slots).1
  encode record := .object (format.encode record)

end RecordFormat

end ArtifactAtlas.Json
