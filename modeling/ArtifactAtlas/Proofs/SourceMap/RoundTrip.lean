import ArtifactAtlas.Proofs.SourceMap.Fields

/-!
# Compressed source maps read back

The writer leaves a field out when its text repeats the entry before, the reader
keeps the value of the entry before when a field is empty.  Both carry that
entry along, and the proofs below go through because after every entry it is the
same one on both sides: `readEntry_writeEntry` is the step and
`readEntries_writeEntries` the run.
-/

namespace ArtifactAtlas.SourceMap

open Text

theorem not_mem_of_mem_changedFields {sep : Char} (hdigit : sep.isDigit = false)
    (hletter : sep ∉ ['-', 'i', 'o']) {previous entry : Entry}
    {text : List Char} (h : text ∈ changedFields previous entry) :
    sep ∉ text := by
  rw [changedFields_eq] at h
  obtain ⟨field, -, rfl⟩ := List.mem_map.mp h
  split
  · exact List.not_mem_nil
  · exact field.not_mem_write hdigit hletter _

/-! ## Entries -/

theorem not_mem_writeEntry {sep : Char} (hcolon : sep ≠ ':')
    (hdigit : sep.isDigit = false) (hletter : sep ∉ ['-', 'i', 'o'])
    (previous entry : Entry) : sep ∉ writeEntry previous entry := by
  intro hsep
  rcases mem_join hsep with h | ⟨piece, hpiece, h⟩
  · exact hcolon (List.mem_singleton.mp h)
  · exact not_mem_of_mem_changedFields hdigit hletter
      ((dropTrailingEmpty_sublist _).subset hpiece) h

private theorem colon_not_mem_kept (previous entry : Entry) :
    ∀ piece ∈ dropTrailingEmpty (changedFields previous entry), ':' ∉ piece := by
  intro piece hpiece
  exact not_mem_of_mem_changedFields (by decide) (by decide)
    ((dropTrailingEmpty_sublist _).subset hpiece)

theorem pieceAt_split_writeEntry (previous entry : Entry) (k : Nat) :
    pieceAt (split ':' (writeEntry previous entry)) k =
      pieceAt (changedFields previous entry) k := by
  rw [writeEntry, pieceAt_split_join (colon_not_mem_kept previous entry),
    pieceAt_dropTrailingEmpty]

theorem length_split_writeEntry_le (previous entry : Entry) :
    (split ':' (writeEntry previous entry)).length ≤ 5 := by
  have hkept := (dropTrailingEmpty_sublist (changedFields previous entry)).length_le
  have hsplit := length_split_join_le (colon_not_mem_kept previous entry)
  rw [length_changedFields] at hkept
  rw [writeEntry]
  omega

theorem Field.read_writeEntry (field : Field) (previous entry : Entry) :
    field.read previous (writeEntry previous entry) = .ok (entry.value field) := by
  rw [Field.read_eq_ok_iff, Field.textIn, pieceAt_split_writeEntry, pieceAt_changedFields]
  by_cases h : field.write (entry.value field) = field.write (previous.value field)
  · rw [if_pos h, if_pos rfl]
    exact field.write_injective h
  · rw [if_neg h, if_neg (field.write_ne_nil _)]
    exact field.parse?_write _

/-- The step: an entry comes back if the reader has the same entry before it as the writer. -/
theorem readEntry_writeEntry (previous entry : Entry) :
    readEntry previous (writeEntry previous entry) = .ok entry :=
  readEntry_eq_ok_iff.mpr ⟨length_split_writeEntry_le previous entry,
    fun field => field.read_writeEntry previous entry⟩

theorem eq_of_writeEntry_eq_nil {previous entry : Entry}
    (h : writeEntry previous entry = []) : entry = previous := by
  have hread := readEntry_writeEntry previous entry
  have hrepeat : readEntry previous [] = .ok previous := rfl
  rw [h, hrepeat] at hread
  exact (Except.ok.inj hread).symm

/-! ## Maps -/

theorem readEntries_writeEntries (number : Nat) (previous : Entry)
    (entries : List Entry) :
    readEntries number previous (writeEntries previous entries) =
      .ok entries := by
  induction entries generalizing number previous with
  | nil => rfl
  | cons entry rest ih =>
      rw [writeEntries, readEntries, readEntry_writeEntry]
      simp [ih, Except.map]

theorem writeEntries_eq_nil_iff {previous : Entry} {entries : List Entry} :
    writeEntries previous entries = [] ↔ entries = [] := by
  cases entries <;> simp [writeEntries]

theorem not_mem_of_mem_writeEntries {sep : Char} (hcolon : sep ≠ ':')
    (hdigit : sep.isDigit = false) (hletter : sep ∉ ['-', 'i', 'o'])
    {previous : Entry} {entries : List Entry} {text : List Char}
    (h : text ∈ writeEntries previous entries) : sep ∉ text := by
  induction entries generalizing previous with
  | nil => simp [writeEntries] at h
  | cons entry rest ih =>
      rcases List.mem_cons.mp h with rfl | h
      · exact not_mem_writeEntry hcolon hdigit hletter previous entry
      · exact ih h

theorem semicolon_not_mem_of_mem_writeEntries {previous : Entry}
    {entries : List Entry} {text : List Char}
    (h : text ∈ writeEntries previous entries) : ';' ∉ text :=
  not_mem_of_mem_writeEntries (by decide) (by decide) (by decide) h

theorem writeEntry_self (entry : Entry) : writeEntry entry entry = [] := by
  simp [writeEntry, changedFields, Entry.fields, dropTrailingEmpty, join]

/-- A single empty text stands for a lone repetition of the entry before, and for nothing else. -/
theorem writeEntries_eq_lone_nil_iff {previous : Entry} {entries : List Entry} :
    writeEntries previous entries = [[]] ↔ entries = [previous] := by
  constructor
  · intro h
    cases entries with
    | nil => simp [writeEntries] at h
    | cons entry rest =>
        simp only [writeEntries, List.cons.injEq] at h
        rw [eq_of_writeEntry_eq_nil h.1, writeEntries_eq_nil_iff.mp h.2]
  · rintro rfl
    simp [writeEntries, writeEntry_self]

theorem decode_encode (entries : List Entry) :
    decode (encode entries) = .ok entries := by
  by_cases hlone : entries = [.seed]
  · subst hlone
    rfl
  by_cases hne : entries = []
  · subst hne
    rfl
  have hwritten : writeEntries .seed entries ≠ [] := fun h =>
    hne (writeEntries_eq_nil_iff.mp h)
  have htext : join [';'] (writeEntries .seed entries) ≠ [] := by
    intro h
    rcases join_eq_nil_iff.mp h with h | h
    · exact hwritten h
    · exact hlone (writeEntries_eq_lone_nil_iff.mp h)
  rw [encode, if_neg hlone, decode, if_neg (by simpa using htext), String.toList_ofList,
    split_join hwritten fun _ => semicolon_not_mem_of_mem_writeEntries,
    readEntries_writeEntries]

theorem encode_injective : Function.Injective encode := by
  intro first second h
  have hread := congrArg decode h
  rw [decode_encode, decode_encode] at hread
  exact Except.ok.inj hread

/--
Every list of entries is read back from its compressed text, compressing what
any readable text says changes nothing of it, and no two lists have one text.
-/
theorem encode_keeps_entries :
    (∀ entries, decode (encode entries) = .ok entries) ∧
    (∀ text entries, decode text = .ok entries →
      decode (encode entries) = decode text) ∧
    Function.Injective encode := by
  refine ⟨decode_encode, ?_, encode_injective⟩
  intro text entries h
  rw [decode_encode, h]

end ArtifactAtlas.SourceMap
