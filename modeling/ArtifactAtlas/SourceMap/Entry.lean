import ArtifactAtlas.Text.Numeral
import ArtifactAtlas.Text.Split

/-!
# Source map entries

A compiler relates every instruction to a range of source text.  An entry is
that relation fully spelled out: where the range starts, how long it is, which
file it is in, whether the instruction jumps into or out of a function, and how
deep it is nested in modifiers.
-/

namespace ArtifactAtlas.SourceMap

inductive Jump where
  | into
  | out
  | regular
  deriving DecidableEq, Repr

namespace Jump

def letter : Jump → Char
  | .into => 'i'
  | .out => 'o'
  | .regular => '-'

/-- Jumps are written as one letter, and the case of the letter counts. -/
def ofText? : List Char → Option Jump
  | ['i'] => some .into
  | ['o'] => some .out
  | ['-'] => some .regular
  | _ => none

end Jump

structure Entry where
  offset : Int64
  length : Int64
  /-- Position in the source list; a negative one means that there is no file. -/
  fileIndex : Int64
  jump : Jump
  modifierDepth : UInt64
  deriving DecidableEq, Repr

namespace Entry

/-- What the first entry of a map inherits from. -/
def seed : Entry := ⟨-1, -1, -2, .regular, 0⟩

/-- The texts of the five fields, in the order they are written. -/
def fields (entry : Entry) : List (List Char) :=
  [Numeral.ofInt entry.offset.toInt, Numeral.ofInt entry.length.toInt,
    Numeral.ofInt entry.fileIndex.toInt, [entry.jump.letter],
    Numeral.ofNat entry.modifierDepth.toNat]

/-- The entry with no field left out. -/
def text (entry : Entry) : String :=
  String.ofList (Text.join [':'] entry.fields)

/-- The position in the source list, if there is one. -/
def index? (entry : Entry) : Option Nat :=
  if 0 ≤ entry.fileIndex.toInt then some entry.fileIndex.toInt.toNat else none

/-- The byte at which the range starts, if it starts anywhere. -/
def start? (entry : Entry) : Option Nat :=
  if 0 ≤ entry.offset.toInt then some entry.offset.toInt.toNat else none

/-- The file of the entry; none when its index is outside the list. -/
def file? (entry : Entry) (sourceList : List String) : Option String :=
  entry.index?.bind fun i => sourceList[i]?

end Entry

end ArtifactAtlas.SourceMap
