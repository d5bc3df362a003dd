import ArtifactAtlas.SourceMap.Entry
import ArtifactAtlas.Text.Quoted

/-!
# The compressed source map format

Entries are separated by semicolons and their fields by colons.  A field that is
empty, or left out at the end of its entry, has the value of the same field in
the entry before.  `decode` fills such fields in; `encode` leaves out whatever
it can.
-/

namespace ArtifactAtlas.SourceMap

/-- The fields of an entry, in the order they are written. -/
inductive Field where
  | offset
  | length
  | fileIndex
  | jump
  | modifierDepth
  deriving DecidableEq, Repr

def Field.name : Field → String
  | .offset => "offset"
  | .length => "length"
  | .fileIndex => "file index"
  | .jump => "jump"
  | .modifierDepth => "modifier depth"

inductive Defect where
  | tooManyFields (entry : String)
  | invalidField (field : Field) (value : String)
  deriving DecidableEq, Repr

def Defect.reason : Defect → String
  | .tooManyFields entry => s!"too many fields in {Text.quote entry}"
  | .invalidField field value => s!"invalid {field.name} field {Text.quote value}"

/-- The first entry that cannot be read, counted from zero, and why. -/
structure Malformed where
  entry : Nat
  defect : Defect
  deriving DecidableEq, Repr

def Malformed.message (malformed : Malformed) : String :=
  let number := Numeral.text malformed.entry
  s!"invalid source map entry {number}: {malformed.defect.reason}"

/-- Reads one field, or keeps the value `inherited` when the field is empty. -/
def readField {α : Type} (field : Field) (parse : List Char → Option α)
    (inherited : α) : List Char → Except Defect α
  | [] => .ok inherited
  | text =>
      match parse text with
      | some value => .ok value
      | none => .error (.invalidField field (String.ofList text))

/-- Reads one entry, given the entry before. -/
def readEntry (previous : Entry) (text : List Char) : Except Defect Entry := do
  let fields := Text.split ':' text
  if fields.length > 5 then
    throw (.tooManyFields (String.ofList text))
  let field (k : Nat) : List Char := fields[k]?.getD []
  let offset ← readField .offset Numeral.signedWord? previous.offset (field 0)
  let length ← readField .length Numeral.signedWord? previous.length (field 1)
  let fileIndex ←
    readField .fileIndex Numeral.signedWord? previous.fileIndex (field 2)
  let jump ← readField .jump Jump.ofText? previous.jump (field 3)
  let depth ←
    readField .modifierDepth Numeral.word? previous.modifierDepth (field 4)
  return ⟨offset, length, fileIndex, jump, depth⟩

/-- Reads entries numbered from `number`, given the entry before them. -/
def readEntries (number : Nat) (previous : Entry) :
    List (List Char) → Except Malformed (List Entry)
  | [] => .ok []
  | text :: rest =>
      match readEntry previous text with
      | .error defect => .error ⟨number, defect⟩
      | .ok entry => (readEntries (number + 1) entry rest).map (entry :: ·)

/-- Every entry with all its fields.  The empty text has no entries. -/
def decode (text : String) : Except Malformed (List Entry) :=
  if text.isEmpty then .ok []
  else readEntries 0 .seed (Text.split ';' text.toList)

/-- The fields of `entry` that differ from those of `previous`, the others empty. -/
def changedFields (previous entry : Entry) : List (List Char) :=
  List.zipWith (fun now before => if now = before then [] else now)
    entry.fields previous.fields

/-- The shortest text of `entry` after `previous`. -/
def writeEntry (previous entry : Entry) : List Char :=
  Text.join [':'] (Text.dropTrailingEmpty (changedFields previous entry))

/-- The shortest texts of entries that come after `previous`. -/
def writeEntries (previous : Entry) : List Entry → List (List Char)
  | [] => []
  | entry :: rest => writeEntry previous entry :: writeEntries entry rest

/--
The compressed text of a map.  A lone entry that repeats the seed would leave
nothing to write, which reads as no entries at all; its offset is kept.
-/
def encode (entries : List Entry) : String :=
  if entries = [.seed] then
    String.ofList (Numeral.ofInt Entry.seed.offset.toInt)
  else
    String.ofList (Text.join [';'] (writeEntries .seed entries))

end ArtifactAtlas.SourceMap
