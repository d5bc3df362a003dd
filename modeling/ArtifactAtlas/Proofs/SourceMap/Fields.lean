import ArtifactAtlas.Proofs.Artifact.Steps
import ArtifactAtlas.Proofs.Text.Numeral
import ArtifactAtlas.Proofs.Text.Split
import ArtifactAtlas.SourceMap.Codec

/-!
# The fields of an entry

What the reader and the writer do with a field is the same for all five but for
the kind of its values.  Here a field has a type of values, a place in an entry
and a way to be read and to be written, so that a fact about entries can be said
and proved once for every field.  `readEntry_eq_ok_iff` and
`readEntries_cons_eq_ok_iff` say all that reading an entry and reading a map take.
-/

namespace ArtifactAtlas.SourceMap

open Text

@[simp] theorem Jump.ofText?_letter (jump : Jump) :
    Jump.ofText? [jump.letter] = some jump := by
  cases jump <;> rfl

namespace Field

def all : List Field := [offset, length, fileIndex, jump, modifierDepth]

theorem mem_all (field : Field) : field ∈ all := by
  cases field <;> decide

def place : Field → Nat
  | offset => 0
  | length => 1
  | fileIndex => 2
  | jump => 3
  | modifierDepth => 4

theorem exists_place_eq {k : Nat} (h : k < 5) : ∃ field : Field, field.place = k := by
  match k with
  | 0 => exact ⟨offset, rfl⟩
  | 1 => exact ⟨length, rfl⟩
  | 2 => exact ⟨fileIndex, rfl⟩
  | 3 => exact ⟨jump, rfl⟩
  | 4 => exact ⟨modifierDepth, rfl⟩

abbrev Value : Field → Type
  | offset | length | fileIndex => Int64
  | jump => Jump
  | modifierDepth => UInt64

def parse? : (field : Field) → List Char → Option field.Value
  | offset | length | fileIndex => Numeral.signedWord?
  | jump => Jump.ofText?
  | modifierDepth => Numeral.word?

def write : (field : Field) → field.Value → List Char
  | offset | length | fileIndex => fun word => Numeral.ofInt word.toInt
  | jump => fun jump => [jump.letter]
  | modifierDepth => fun word => Numeral.ofNat word.toNat

theorem parse?_write (field : Field) (value : field.Value) :
    field.parse? (field.write value) = some value := by
  cases field with
  | offset | length | fileIndex => exact Numeral.signedWord?_ofInt value
  | jump => exact Jump.ofText?_letter value
  | modifierDepth => exact Numeral.word?_ofNat value

theorem write_ne_nil (field : Field) (value : field.Value) : field.write value ≠ [] := by
  cases field with
  | offset | length | fileIndex => exact Numeral.ofInt_ne_nil _
  | jump => exact List.cons_ne_nil _ _
  | modifierDepth => exact Numeral.ofNat_ne_nil _

theorem not_mem_write {sep : Char} (hdigit : sep.isDigit = false)
    (hletter : sep ∉ ['-', 'i', 'o']) (field : Field) (value : field.Value) :
    sep ∉ field.write value := by
  intro hsep
  cases field with
  | offset | length | fileIndex =>
      rcases Numeral.isDigit_or_minus_of_mem_ofInt hsep with h | rfl
      · rw [hdigit] at h
        cases h
      · simp at hletter
  | jump =>
      obtain rfl := List.mem_singleton.mp hsep
      cases value <;> simp [Jump.letter] at hletter
  | modifierDepth =>
      rw [Numeral.isDigit_of_mem_ofNat hsep] at hdigit
      cases hdigit

theorem write_injective (field : Field) : Function.Injective field.write := by
  intro first second h
  have hread := field.parse?_write first
  rw [h, field.parse?_write second] at hread
  exact (Option.some.inj hread).symm

end Field

def Entry.value (entry : Entry) : (field : Field) → field.Value
  | .offset => entry.offset
  | .length => entry.length
  | .fileIndex => entry.fileIndex
  | .jump => entry.jump
  | .modifierDepth => entry.modifierDepth

namespace Field

/-- What the text of an entry has for the field; nothing where it ends before. -/
def textIn (field : Field) (entry : List Char) : List Char :=
  pieceAt (split ':' entry) field.place

/-- The value of the field in an entry, given the entry before. -/
def read (field : Field) (previous : Entry) (entry : List Char) : Except Defect field.Value :=
  readField field field.parse? (previous.value field) (field.textIn entry)

variable {field : Field} {previous : Entry} {entry : List Char} {value : field.Value}

theorem read_of_empty (h : field.textIn entry = []) :
    field.read previous entry = .ok (previous.value field) := by
  rw [read, h, readField]

theorem read_of_ne_nil (h : field.textIn entry ≠ []) :
    field.read previous entry =
      match field.parse? (field.textIn entry) with
      | some value => .ok value
      | none => .error (.invalidField field (String.ofList (field.textIn entry))) := by
  rw [read]
  cases htext : field.textIn entry with
  | nil => exact absurd htext h
  | cons c rest =>
      rw [readField]
      · cases field.parse? (c :: rest) <;> rfl
      · nofun

theorem read_eq_ok_iff :
    field.read previous entry = .ok value ↔
      if field.textIn entry = [] then value = previous.value field
      else field.parse? (field.textIn entry) = some value := by
  split
  case isTrue h => rw [read_of_empty h, Except.ok.injEq, eq_comm]
  case isFalse h =>
    rw [read_of_ne_nil h]
    cases field.parse? (field.textIn entry) <;> simp

end Field

/-! ## Entries, field by field -/

/-- The reader goes through the fields in order. -/
theorem readEntry_eq {previous : Entry} {text : List Char} (h : (split ':' text).length ≤ 5) :
    readEntry previous text = do
      let offset ← Field.offset.read previous text
      let length ← Field.length.read previous text
      let fileIndex ← Field.fileIndex.read previous text
      let jump ← Field.jump.read previous text
      let depth ← Field.modifierDepth.read previous text
      return ⟨offset, length, fileIndex, jump, depth⟩ := by
  rw [readEntry, if_neg (Nat.not_lt.mpr h)]
  rfl

theorem readEntry_eq_ok_iff {previous entry : Entry} {text : List Char} :
    readEntry previous text = .ok entry ↔
      (split ':' text).length ≤ 5 ∧
        ∀ field : Field, field.read previous text = .ok (entry.value field) := by
  constructor
  · intro h
    have few : (split ':' text).length ≤ 5 := by
      by_contra hmany
      rw [readEntry, if_pos (Nat.not_le.mp hmany)] at h
      cases h
    rw [readEntry_eq few] at h
    simp only [bind_eq_ok_iff, pure_eq_ok_iff] at h
    obtain ⟨_, hoffset, _, hlength, _, hfile, _, hjump, _, hdepth, rfl⟩ := h
    refine ⟨few, fun field => ?_⟩
    cases field with
    | offset => exact hoffset
    | length => exact hlength
    | fileIndex => exact hfile
    | jump => exact hjump
    | modifierDepth => exact hdepth
  · rintro ⟨few, hfields⟩
    rw [readEntry_eq few, hfields .offset, hfields .length, hfields .fileIndex,
      hfields .jump, hfields .modifierDepth]
    rfl

theorem changedFields_eq (previous entry : Entry) :
    changedFields previous entry = Field.all.map fun field =>
      if field.write (entry.value field) = field.write (previous.value field) then []
      else field.write (entry.value field) := rfl

theorem pieceAt_changedFields (previous entry : Entry) (field : Field) :
    pieceAt (changedFields previous entry) field.place =
      if field.write (entry.value field) = field.write (previous.value field) then []
      else field.write (entry.value field) := by
  cases field <;> rfl

theorem length_changedFields (previous entry : Entry) :
    (changedFields previous entry).length = 5 := rfl

/-! ## Entries one after another -/

theorem readEntries_cons_eq_ok_iff {number : Nat} {previous : Entry} {text : List Char}
    {rest : List (List Char)} {entries : List Entry} :
    readEntries number previous (text :: rest) = .ok entries ↔
      ∃ entry others, readEntry previous text = .ok entry ∧
        readEntries (number + 1) entry rest = .ok others ∧ entries = entry :: others := by
  rw [readEntries]
  cases readEntry previous text with
  | error defect => simp
  | ok entry =>
      refine map_eq_ok_iff.trans ⟨?_, ?_⟩
      · rintro ⟨others, hothers, rfl⟩
        exact ⟨entry, others, rfl, hothers, rfl⟩
      · rintro ⟨_, others, hentry, hothers, rfl⟩
        cases hentry
        exact ⟨others, hothers, rfl⟩

theorem length_of_readEntries {number : Nat} {previous : Entry} {texts : List (List Char)}
    {entries : List Entry} (h : readEntries number previous texts = .ok entries) :
    entries.length = texts.length := by
  induction texts generalizing number previous entries with
  | nil =>
      cases h
      rfl
  | cons text rest ih =>
      obtain ⟨entry, others, -, hothers, rfl⟩ := readEntries_cons_eq_ok_iff.mp h
      rw [List.length_cons, List.length_cons, ih hothers]

theorem decode_of_ne_empty {text : String} (h : text ≠ "") :
    decode text = readEntries 0 .seed (split ';' text.toList) := by
  rw [decode, if_neg]
  rwa [String.isEmpty_iff]

end ArtifactAtlas.SourceMap
