import ArtifactAtlas.Proofs.SourceMap.RoundTrip
import ArtifactAtlas.SourceMap.Rehome

/-!
# Rehomed maps read back

Rehoming edits the text of a map field by field and decodes nothing.  An entry that
leaves its file index out inherits it from an entry before, which the edit may have
changed.  The proofs therefore read the text and the edited text side by side:
`readEntry_rehomeEntry` is the step, for any file index that the entry before has got,
and the runs are inductions over the entries of the text and over written entries.
-/

namespace ArtifactAtlas.SourceMap

open Text

/-! ## Fields of the text -/

/-- A field of the text of a map; none where the text has no such entry, or the entry no
such field. -/
def field? (text : String) (entry place : Nat) : Option (List Char) :=
  (split ';' text.toList)[entry]?.bind fun entry => (split ':' entry)[place]?

/-- What stands in a place of a rehomed entry. -/
def rehomedField (target : List Char) (place : Nat) (field : List Char) : List Char :=
  if place = 2 ∧ field ≠ [] ∧ field ≠ ['-', '1'] then target else field

theorem rehomeFields_eq_modify (target : List Char) (fields : List (List Char)) :
    rehomeFields target fields = fields.modify 2 (rehomedField target 2) := by
  match fields with
  | [] | [_] | [_, _] => rfl
  | offset :: length :: index :: rest =>
      rw [rehomeFields]
      by_cases hindex : index = [] ∨ index = ['-', '1']
      · rw [if_pos hindex]
        rcases hindex with rfl | rfl <;> simp [rehomedField]
      · rw [if_neg hindex]
        rw [not_or] at hindex
        simp [rehomedField, hindex]

theorem getElem?_rehomeFields (target : List Char) (fields : List (List Char)) (place : Nat) :
    (rehomeFields target fields)[place]? = fields[place]?.map (rehomedField target place) := by
  rw [rehomeFields_eq_modify, List.getElem?_modify]
  congr 1
  funext field
  by_cases hplace : 2 = place
  · rw [if_pos hplace, ← hplace]
  · rw [if_neg hplace, rehomedField, if_neg fun h => hplace h.1.symm]

theorem mem_rehomeFields {target field : List Char} {fields : List (List Char)}
    (h : field ∈ rehomeFields target fields) : field = target ∨ field ∈ fields := by
  obtain ⟨place, hplace⟩ := List.mem_iff_getElem?.mp h
  rw [getElem?_rehomeFields, Option.map_eq_some_iff] at hplace
  obtain ⟨old, hold, rfl⟩ := hplace
  rw [rehomedField]
  split
  case isTrue => exact .inl rfl
  case isFalse => exact .inr (List.mem_of_getElem? hold)

theorem rehomeFields_ne_nil {target : List Char} {fields : List (List Char)}
    (h : fields ≠ []) : rehomeFields target fields ≠ [] := by
  intro hnil
  have hfirst := getElem?_rehomeFields target fields 0
  rw [hnil] at hfirst
  cases fields with
  | nil => contradiction
  | cons first rest => simp at hfirst

theorem not_mem_ofNat {sep : Char} (h : sep.isDigit = false) (n : Nat) :
    sep ∉ Numeral.ofNat n := by
  intro hmem
  rw [Numeral.isDigit_of_mem_ofNat hmem] at h
  cases h

theorem split_rehomeEntry (target : Nat) (entry : List Char) :
    split ':' (rehomeEntry (Numeral.ofNat target) entry) =
      rehomeFields (Numeral.ofNat target) (split ':' entry) := by
  refine split_join (rehomeFields_ne_nil (split_ne_nil ':' entry)) fun field hfield => ?_
  rcases mem_rehomeFields hfield with rfl | hfield
  · exact not_mem_ofNat (by decide) target
  · exact not_mem_of_mem_split hfield

theorem semicolon_not_mem_rehomeEntry {entry : List Char} (h : ';' ∉ entry) (target : Nat) :
    ';' ∉ rehomeEntry (Numeral.ofNat target) entry := by
  intro hmem
  rcases mem_join hmem with hsep | ⟨field, hfield, hmem⟩
  · simp at hsep
  rcases mem_rehomeFields hfield with rfl | hfield
  · exact not_mem_ofNat (by decide) target hmem
  · exact h ((sublist_of_mem_split hfield).subset hmem)

theorem split_rehome (target : Nat) (text : String) :
    split ';' (rehome target text).toList =
      (split ';' text.toList).map (rehomeEntry (Numeral.ofNat target)) := by
  rw [rehome, String.toList_ofList]
  refine split_join (by simp) fun entry hentry => ?_
  obtain ⟨old, hold, rfl⟩ := List.mem_map.mp hentry
  exact semicolon_not_mem_rehomeEntry (not_mem_of_mem_split hold) target

theorem field?_rehome (target : Nat) (text : String) (entry place : Nat) :
    field? (rehome target text) entry place =
      (field? text entry place).map (rehomedField (Numeral.ofNat target) place) := by
  rw [field?, field?, split_rehome, List.getElem?_map]
  cases (split ';' text.toList)[entry]? with
  | none => rfl
  | some old =>
      rw [Option.map_some, Option.bind_some, Option.bind_some, split_rehomeEntry,
        getElem?_rehomeFields]

theorem rehomedField_rehomedField {target : List Char} (hne : target ≠ [])
    (hminus : target ≠ ['-', '1']) (other : List Char) (place : Nat) (field : List Char) :
    rehomedField other place (rehomedField target place field) =
      rehomedField other place field := by
  by_cases h : place = 2 ∧ field ≠ [] ∧ field ≠ ['-', '1']
  · simp [rehomedField, h, hne, hminus]
  · rw [rehomedField.eq_def target, if_neg h]

theorem ofNat_ne_minusOne (n : Nat) : Numeral.ofNat n ≠ ['-', '1'] := by
  intro h
  have hminus : '-' ∈ Numeral.ofNat n := by simp [h]
  exact not_mem_ofNat (by decide) n hminus

theorem rehomeEntry_rehomeEntry (first second : Nat) (entry : List Char) :
    rehomeEntry (Numeral.ofNat second) (rehomeEntry (Numeral.ofNat first) entry) =
      rehomeEntry (Numeral.ofNat second) entry := by
  rw [rehomeEntry, split_rehomeEntry, rehomeEntry]
  congr 1
  apply List.ext_getElem?
  intro place
  rw [getElem?_rehomeFields, getElem?_rehomeFields, getElem?_rehomeFields, Option.map_map]
  congr 1
  funext field
  exact rehomedField_rehomedField (Numeral.ofNat_ne_nil first) (ofNat_ne_minusOne first) _ _ _

theorem rehome_rehome (first second : Nat) (text : String) :
    rehome second (rehome first text) = rehome second text := by
  rw [rehome, split_rehome, List.map_map, rehome]
  congr 3
  funext entry
  exact rehomeEntry_rehomeEntry first second entry

theorem eq_nil_of_rehomeEntry_eq_nil {target : Nat} {entry : List Char}
    (h : rehomeEntry (Numeral.ofNat target) entry = []) : entry = [] := by
  have hfields := split_rehomeEntry target entry
  rw [h, rehomeFields_eq_modify] at hfields
  have hlength := congrArg List.length hfields
  rw [List.length_modify] at hlength
  obtain ⟨field, hfield⟩ := List.length_eq_one_iff.mp hlength.symm
  rw [hfield] at hfields
  obtain rfl : [] = field := (List.cons.inj hfields).1
  rw [← join_split ':' entry, hfield]
  rfl

theorem eq_empty_of_rehome_eq_empty {target : Nat} {text : String}
    (h : rehome target text = "") : text = "" := by
  have hentries := split_rehome target text
  rw [h] at hentries
  obtain ⟨entry, hentry, hrehomed⟩ := List.map_eq_singleton_iff.mp hentries.symm
  have hnil := eq_nil_of_rehomeEntry_eq_nil hrehomed
  rw [hnil] at hentry
  have htext := join_split ';' text.toList
  rw [hentry] at htext
  exact String.toList_eq_nil_iff.mp htext.symm

/-! ## Entries -/

theorem pieceAt_split_rehomeEntry (target : Nat) (entry : List Char) (place : Nat) :
    pieceAt (split ':' (rehomeEntry (Numeral.ofNat target) entry)) place =
      rehomedField (Numeral.ofNat target) place (pieceAt (split ':' entry) place) := by
  rw [split_rehomeEntry, pieceAt, pieceAt, getElem?_rehomeFields]
  cases (split ':' entry)[place]? with
  | none => simp [rehomedField]
  | some field => rfl

theorem signedWord?_ofNat {n : Nat} (h : n < Numeral.signedLimit) :
    Numeral.signedWord? (Numeral.ofNat n) = some (Int64.ofNat n) := by
  have hword : (Int64.ofNat n).toInt = n := Int64.toInt_ofNat_of_lt h
  have hread := Numeral.signedWord?_ofInt (Int64.ofNat n)
  rwa [hword] at hread

/-- What is read from a rehomed file index, for an entry that inherits `inherited`. -/
def rehomedIndex (target : Nat) (inherited : Int64) (field : List Char) : Int64 :=
  if field = [] then inherited
  else if field = ['-', '1'] then -1
  else Int64.ofNat target

theorem readField_rehomedField {target : Nat} (htarget : target < Numeral.signedLimit)
    (inherited : Int64) (field : List Char) :
    readField .fileIndex Numeral.signedWord? inherited
        (rehomedField (Numeral.ofNat target) 2 field) =
      .ok (rehomedIndex target inherited field) := by
  rw [rehomedIndex]
  by_cases hempty : field = []
  · simp [rehomedField, hempty, readField]
  rw [if_neg hempty]
  by_cases hminus : field = ['-', '1']
  · simp [rehomedField, hminus]
    rfl
  rw [if_neg hminus, rehomedField, if_pos ⟨rfl, hempty, hminus⟩]
  cases htext : Numeral.ofNat target with
  | nil => exact absurd htext (Numeral.ofNat_ne_nil target)
  | cons c rest => rw [readField, ← htext, signedWord?_ofNat htarget]; simp

/-- The step: a rehomed entry reads as the entry does but for its file index, whatever
file index the entry before has got. -/
theorem readEntry_rehomeEntry {target : Nat} (htarget : target < Numeral.signedLimit)
    {previous entry : Entry} {text : List Char} (h : readEntry previous text = .ok entry)
    (inherited : Int64) :
    readEntry { previous with fileIndex := inherited }
        (rehomeEntry (Numeral.ofNat target) text) =
      .ok { entry with
        fileIndex := rehomedIndex target inherited (pieceAt (split ':' text) 2) } := by
  obtain ⟨few, hfields⟩ := readEntry_eq_ok_iff.mp h
  rw [readEntry_eq_ok_iff]
  refine ⟨?_, fun field => ?_⟩
  · rwa [split_rehomeEntry, rehomeFields_eq_modify, List.length_modify]
  · have hread := hfields field
    have htext := pieceAt_split_rehomeEntry target text field.place
    rw [Field.read, Field.textIn] at hread ⊢
    rw [htext]
    cases field with
    | fileIndex => exact readField_rehomedField htarget _ _
    | offset | length | jump | modifierDepth =>
        rw [rehomedField, if_neg fun hand => absurd hand.1 (by decide)]
        exact hread

/-! ## Maps -/

/-- Two entries that differ in their file indices at most. -/
structure Entry.AgreesButForFile (entry other : Entry) : Prop where
  offset : other.offset = entry.offset
  length : other.length = entry.length
  jump : other.jump = entry.jump
  modifierDepth : other.modifierDepth = entry.modifierDepth

/-- The file index `target` in place of one that is not negative. -/
def movedIndex (target : Nat) (index : Int64) : Int64 :=
  if 0 ≤ index.toInt then Int64.ofNat target else index

def Entry.rehomed (target : Nat) (entry : Entry) : Entry :=
  { entry with fileIndex := movedIndex target entry.fileIndex }

theorem exists_readEntries_rehomeEntry {target : Nat} (htarget : target < Numeral.signedLimit)
    {number : Nat} {previous : Entry} {texts : List (List Char)} {entries : List Entry}
    (h : readEntries number previous texts = .ok entries) (inherited : Int64) :
    ∃ rehomed, readEntries number { previous with fileIndex := inherited }
        (texts.map (rehomeEntry (Numeral.ofNat target))) = .ok rehomed ∧
      List.Forall₂ Entry.AgreesButForFile entries rehomed := by
  induction texts generalizing number previous entries inherited with
  | nil =>
      cases h
      exact ⟨[], rfl, .nil⟩
  | cons text rest ih =>
      obtain ⟨entry, others, hentry, hothers, rfl⟩ := readEntries_cons_eq_ok_iff.mp h
      have hstep := readEntry_rehomeEntry htarget hentry inherited
      obtain ⟨rehomed, hrehomed, hagree⟩ := ih hothers
        (rehomedIndex target inherited (pieceAt (split ':' text) 2))
      have hagrees : entry.AgreesButForFile { entry with
          fileIndex := rehomedIndex target inherited (pieceAt (split ':' text) 2) } :=
        ⟨rfl, rfl, rfl, rfl⟩
      exact ⟨_, readEntries_cons_eq_ok_iff.mpr ⟨_, rehomed, hstep, hrehomed, rfl⟩,
        .cons hagrees hagree⟩

theorem exists_decode_rehome {target : Nat} (htarget : target < Numeral.signedLimit)
    {text : String} {entries : List Entry} (h : decode text = .ok entries) :
    ∃ rehomed, decode (rehome target text) = .ok rehomed ∧
      List.Forall₂ Entry.AgreesButForFile entries rehomed := by
  by_cases hempty : text = ""
  · subst hempty
    cases h
    exact ⟨[], rfl, .nil⟩
  · rw [decode_of_ne_empty hempty] at h
    rw [decode_of_ne_empty (mt eq_empty_of_rehome_eq_empty hempty), split_rehome]
    exact exists_readEntries_rehomeEntry htarget h Entry.seed.fileIndex

/-! ## Written maps -/

theorem rehomedIndex_ofInt {index : Int64} (h : -1 ≤ index.toInt) (target : Nat)
    (inherited : Int64) :
    rehomedIndex target inherited (Numeral.ofInt index.toInt) = movedIndex target index := by
  rw [rehomedIndex, if_neg (Numeral.ofInt_ne_nil _), movedIndex]
  by_cases hfile : 0 ≤ index.toInt
  · obtain ⟨n, hn⟩ := Int.eq_ofNat_of_zero_le hfile
    rw [if_pos hfile, hn, if_neg]
    exact ofNat_ne_minusOne n
  · have hminus : index.toInt = (-1 : Int64).toInt := by
      rw [show (-1 : Int64).toInt = -1 from rfl]
      omega
    obtain rfl : index = -1 := Int64.toInt_inj.mp hminus
    rfl

/-- What an entry leaves out it inherits from the one before, and that has moved already. -/
theorem rehomedIndex_changed {now : Int64} (h : -1 ≤ now.toInt) (target : Nat)
    (before : Int64) :
    rehomedIndex target (movedIndex target before)
        (if Numeral.ofInt now.toInt = Numeral.ofInt before.toInt then []
        else Numeral.ofInt now.toInt) =
      movedIndex target now := by
  split
  case isTrue heq => rw [rehomedIndex, if_pos rfl, Field.fileIndex.write_injective heq]
  case isFalse => exact rehomedIndex_ofInt h target _

theorem readEntry_rehomeEntry_writeEntry {target : Nat} (htarget : target < Numeral.signedLimit)
    (previous : Entry) {entry : Entry} (hindex : -1 ≤ entry.fileIndex.toInt) :
    readEntry (previous.rehomed target)
        (rehomeEntry (Numeral.ofNat target) (writeEntry previous entry)) =
      .ok (entry.rehomed target) := by
  have hstep := readEntry_rehomeEntry htarget (readEntry_writeEntry previous entry)
    (previous.rehomed target).fileIndex
  rw [pieceAt_split_writeEntry] at hstep
  exact hstep.trans (congrArg (fun index => Except.ok { entry with fileIndex := index })
    (rehomedIndex_changed hindex target previous.fileIndex))

theorem readEntries_rehomeEntry_writeEntries {target : Nat}
    (htarget : target < Numeral.signedLimit) (number : Nat) (previous : Entry)
    {entries : List Entry} (hindices : ∀ entry ∈ entries, -1 ≤ entry.fileIndex.toInt) :
    readEntries number (previous.rehomed target)
        ((writeEntries previous entries).map (rehomeEntry (Numeral.ofNat target))) =
      .ok (entries.map (·.rehomed target)) := by
  induction entries generalizing number previous with
  | nil => rfl
  | cons entry rest ih =>
      rw [List.forall_mem_cons] at hindices
      rw [writeEntries, List.map_cons, readEntries,
        readEntry_rehomeEntry_writeEntry htarget previous hindices.1]
      exact map_eq_ok_iff.mpr ⟨_, ih (number + 1) entry hindices.2, rfl⟩

theorem decode_rehome_encode {target : Nat} (htarget : target < Numeral.signedLimit)
    {entries : List Entry} (hindices : ∀ entry ∈ entries, -1 ≤ entry.fileIndex.toInt) :
    decode (rehome target (encode entries)) = .ok (entries.map (·.rehomed target)) := by
  have hlone : entries ≠ [.seed] := by
    rintro rfl
    exact absurd (hindices .seed List.mem_cons_self) (by decide)
  by_cases hnil : entries = []
  · subst hnil
    rfl
  have htext : encode entries ≠ "" := by
    intro hempty
    have hread := decode_encode entries
    rw [hempty] at hread
    exact hnil (Except.ok.inj hread).symm
  rw [decode_of_ne_empty (mt eq_empty_of_rehome_eq_empty htext), split_rehome, encode,
    if_neg hlone, String.toList_ofList, split_join (mt writeEntries_eq_nil_iff.mp hnil)
      fun _ => semicolon_not_mem_of_mem_writeEntries]
  exact readEntries_rehomeEntry_writeEntries htarget 0 .seed hindices

/--
Rehoming changes no field of a text but the third ones that name a file, and the last of
several rehomings counts.  What is read from the rehomed text differs in file indices
only, and of written entries exactly those that have a file have moved.
-/
theorem rehome_edits_only_file_indices (target : Nat) :
    (∀ text entry place, field? (rehome target text) entry place =
      (field? text entry place).map (rehomedField (Numeral.ofNat target) place)) ∧
    (∀ other text, rehome other (rehome target text) = rehome other text) ∧
    (target < Numeral.signedLimit →
      (∀ text entries, decode text = .ok entries →
        ∃ rehomed, decode (rehome target text) = .ok rehomed ∧
          List.Forall₂ Entry.AgreesButForFile entries rehomed) ∧
      ∀ entries : List Entry, (∀ entry ∈ entries, -1 ≤ entry.fileIndex.toInt) →
        decode (rehome target (encode entries)) = .ok (entries.map (·.rehomed target))) :=
  ⟨field?_rehome target, fun other text => rehome_rehome target other text, fun htarget =>
    ⟨fun _ _ => exists_decode_rehome htarget, fun _ => decode_rehome_encode htarget⟩⟩

/-- A map whose entries leave the file index out, name no file, and name files. -/
def sparseMap : List Entry :=
  [⟨1, 2, 3, .regular, 0⟩, ⟨4, 2, 3, .into, 0⟩, ⟨4, 5, -1, .into, 1⟩, ⟨6, 5, -1, .out, 1⟩,
    ⟨6, 5, 9, .out, 0⟩]

theorem rehome_sparseMap :
    0 < Numeral.signedLimit ∧ (∀ entry ∈ sparseMap, -1 ≤ entry.fileIndex.toInt) ∧
      encode sparseMap = "1:2:3;4:::i;:5:-1::1;6:::o;::9::0" ∧
      rehome 0 (encode sparseMap) = "1:2:0;4:::i;:5:-1::1;6:::o;::0::0" ∧
      decode (rehome 0 (encode sparseMap)) =
        .ok [⟨1, 2, 0, .regular, 0⟩, ⟨4, 2, 0, .into, 0⟩, ⟨4, 5, -1, .into, 1⟩,
          ⟨6, 5, -1, .out, 1⟩, ⟨6, 5, 0, .out, 0⟩] := by
  have hlimit : 0 < Numeral.signedLimit := by decide
  have hindices : ∀ entry ∈ sparseMap, -1 ≤ entry.fileIndex.toInt := by decide
  exact ⟨hlimit, hindices, by decide +kernel, by decide +kernel,
    ((rehome_edits_only_file_indices 0).2.2 hlimit).2 sparseMap hindices⟩

end ArtifactAtlas.SourceMap
