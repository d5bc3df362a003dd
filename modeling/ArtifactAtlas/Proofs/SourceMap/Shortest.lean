import ArtifactAtlas.Proofs.SourceMap.RoundTrip

/-!
# The shortest text of a map

Nothing that `encode` writes can be left out.  A field that differs from the
entry before has to be there, no numeral of its value is shorter than the
written one, and the separators before it are needed to tell its place.  So no
text of the same entries is shorter, entry by entry; the one exception is a lone
entry that repeats the seed.
-/

namespace ArtifactAtlas.SourceMap

open Text

/-! ## One entry -/

theorem Field.length_write_le {field : Field} {text : List Char} {value : field.Value}
    (h : field.parse? text = some value) : (field.write value).length ≤ text.length := by
  cases field with
  | offset => exact Numeral.length_ofInt_le_of_signedWord? h
  | length => exact Numeral.length_ofInt_le_of_signedWord? h
  | fileIndex => exact Numeral.length_ofInt_le_of_signedWord? h
  | jump =>
      have hne : text ≠ [] := by
        rintro rfl
        cases h
      exact List.length_pos_of_ne_nil hne
  | modifierDepth => exact Numeral.length_ofNat_le_of_word? h

theorem length_changedField_le {previous entry : Entry} {text : List Char} {field : Field}
    (h : field.read previous text = .ok (entry.value field)) :
    (pieceAt (changedFields previous entry) field.place).length ≤
      (field.textIn text).length := by
  rw [pieceAt_changedFields]
  rw [Field.read_eq_ok_iff] at h
  split
  case isTrue => exact Nat.zero_le _
  case isFalse hchanged =>
    split at h
    case isTrue => exact absurd (congrArg field.write h) hchanged
    case isFalse => exact Field.length_write_le h

/-- The step: no text that reads as an entry is shorter than the one that is written. -/
theorem length_writeEntry_le {previous entry : Entry} {text : List Char}
    (h : readEntry previous text = .ok entry) :
    (writeEntry previous entry).length ≤ text.length := by
  have hfields := (readEntry_eq_ok_iff.mp h).2
  have hpieces : ∀ k, (pieceAt (changedFields previous entry) k).length ≤
      (pieceAt (split ':' text) k).length := by
    intro k
    by_cases hk : k < 5
    · obtain ⟨field, rfl⟩ := Field.exists_place_eq hk
      exact length_changedField_le (hfields field)
    · have hnone : (changedFields previous entry)[k]? = none :=
        List.getElem?_eq_none (Nat.not_lt.mp hk)
      rw [pieceAt, hnone]
      exact Nat.zero_le _
  have hle := length_join_dropTrailingEmpty_le ':' hpieces
  rwa [join_split] at hle

/-! ## Whole maps -/

/-- The run: there is an entry for each text, so there are as many separators on both sides. -/
theorem length_join_writeEntries_le {number : Nat} {previous : Entry}
    {texts : List (List Char)} {entries : List Entry}
    (h : readEntries number previous texts = .ok entries) :
    (join [';'] (writeEntries previous entries)).length ≤ (join [';'] texts).length := by
  induction texts generalizing number previous entries with
  | nil =>
      cases h
      exact Nat.le_refl _
  | cons text rest ih =>
      obtain ⟨entry, others, hentry, hothers, rfl⟩ := readEntries_cons_eq_ok_iff.mp h
      have hle := length_writeEntry_le hentry
      have hlength := length_of_readEntries hothers
      rw [writeEntries]
      -- No separator follows the last entry, on either side.
      by_cases hrest : rest = []
      · subst hrest
        obtain rfl := List.length_eq_zero_iff.mp hlength
        exact hle
      · have hwritten : writeEntries entry others ≠ [] := by
          rw [Ne, writeEntries_eq_nil_iff]
          rintro rfl
          exact hrest (List.length_eq_zero_iff.mp hlength.symm)
        have hjoin := ih hothers
        rw [length_join_cons_of_ne_nil ';' _ hwritten, length_join_cons_of_ne_nil ';' _ hrest]
        omega

theorem length_encode_le {text : String} {entries : List Entry}
    (h : decode text = .ok entries) (hlone : entries ≠ [.seed]) :
    (encode entries).length ≤ text.length := by
  by_cases hempty : text = ""
  · subst hempty
    cases h
    exact Nat.le_refl _
  · rw [decode_of_ne_empty hempty] at h
    have hle := length_join_writeEntries_le h
    rw [join_split, String.length_toList] at hle
    rwa [encode, if_neg hlone, String.length_ofList]

/-! ## Bytes -/

theorem utf8ByteSize_ofList_cons (c : Char) (rest : List Char) :
    (String.ofList (c :: rest)).utf8ByteSize =
      c.utf8Size + (String.ofList rest).utf8ByteSize := by
  rw [String.ofList_cons, String.utf8ByteSize_append, String.utf8ByteSize_singleton]

theorem length_le_utf8ByteSize (text : List Char) :
    text.length ≤ (String.ofList text).utf8ByteSize := by
  induction text with
  | nil => exact Nat.zero_le _
  | cons c rest ih =>
      have hpos := c.utf8Size_pos
      rw [List.length_cons, utf8ByteSize_ofList_cons]
      omega

theorem utf8ByteSize_eq_length {text : List Char} (h : ∀ c ∈ text, c.utf8Size = 1) :
    (String.ofList text).utf8ByteSize = text.length := by
  induction text with
  | nil => rfl
  | cons c rest ih =>
      rw [List.forall_mem_cons] at h
      rw [utf8ByteSize_ofList_cons, ih h.2, h.1, List.length_cons, Nat.add_comm]

theorem utf8Size_of_isDigit {c : Char} (h : c.isDigit = true) : c.utf8Size = 1 := by
  rw [Char.isDigit_iff_toNat] at h
  have hnine : '9'.toNat = 57 := rfl
  exact Char.utf8Size_eq_one_iff.mpr (show c.toNat ≤ 127 by omega)

theorem utf8Size_of_mem_encode {entries : List Entry} {c : Char}
    (h : c ∈ (encode entries).toList) : c.utf8Size = 1 := by
  by_contra hsize
  have hne : ∀ d : Char, d.utf8Size = 1 → c ≠ d := by
    rintro d hd rfl
    exact hsize hd
  have hdigit : c.isDigit = false := by
    rw [Bool.eq_false_iff]
    exact fun hdigit => hsize (utf8Size_of_isDigit hdigit)
  have hletter : c ∉ ['-', 'i', 'o'] := by
    simp [hne '-' (by decide), hne 'i' (by decide), hne 'o' (by decide)]
  rw [encode] at h
  split at h
  case isTrue =>
    rw [String.toList_ofList] at h
    rcases Numeral.isDigit_or_minus_of_mem_ofInt h with hc | hc
    · rw [hdigit] at hc
      contradiction
    · exact hne '-' (by decide) hc
  case isFalse =>
    rw [String.toList_ofList] at h
    rcases mem_join h with hc | ⟨piece, hpiece, hc⟩
    · exact hne ';' (by decide) (List.mem_singleton.mp hc)
    · exact not_mem_of_mem_writeEntries (hne ':' (by decide)) hdigit hletter hpiece hc

theorem utf8ByteSize_encode (entries : List Entry) :
    (encode entries).utf8ByteSize = (encode entries).length := by
  have hbytes := utf8ByteSize_eq_length fun c => @utf8Size_of_mem_encode entries c
  rwa [String.ofList_toList, String.length_toList] at hbytes

/-! ## Main result -/

/--
The written text of a map reads as the map, and no text that reads so is shorter,
in characters or in bytes, unless the map is a lone repetition of the seed.
-/
theorem encode_is_shortest (entries : List Entry) (hlone : entries ≠ [.seed]) :
    decode (encode entries) = .ok entries ∧
    ∀ text, decode text = .ok entries →
      (encode entries).length ≤ text.length ∧
      (encode entries).utf8ByteSize ≤ text.utf8ByteSize := by
  refine ⟨decode_encode entries, fun text h => ?_⟩
  have hle := length_encode_le h hlone
  refine ⟨hle, ?_⟩
  calc
    (encode entries).utf8ByteSize = (encode entries).length := utf8ByteSize_encode entries
    _ ≤ text.length := hle
    _ = text.toList.length := String.length_toList.symm
    _ ≤ (String.ofList text.toList).utf8ByteSize := length_le_utf8ByteSize text.toList
    _ = text.utf8ByteSize := by rw [String.ofList_toList]

/-- A map with signs, leading zeros, repetitions and separators that say nothing. -/
def longWindedMap : String := "+01:2:03:-:;::;01::-0:i;:2;"

def longWindedEntries : List Entry :=
  [⟨1, 2, 3, .regular, 0⟩, ⟨1, 2, 3, .regular, 0⟩, ⟨1, 2, 0, .into, 0⟩, ⟨1, 2, 0, .into, 0⟩,
    ⟨1, 2, 0, .into, 0⟩]

theorem longWindedMap_has_shorter_text :
    longWindedEntries ≠ [.seed] ∧ decode longWindedMap = .ok longWindedEntries ∧
    encode longWindedEntries = "1:2:3;;::0:i;;" ∧
    decode (encode longWindedEntries) = .ok longWindedEntries ∧
    (encode longWindedEntries).length ≤ longWindedMap.length ∧
    (encode longWindedEntries).utf8ByteSize ≤ longWindedMap.utf8ByteSize := by
  have hlone : longWindedEntries ≠ [.seed] := by decide
  have hread : decode longWindedMap = .ok longWindedEntries := rfl
  obtain ⟨hwritten, hshortest⟩ := encode_is_shortest longWindedEntries hlone
  exact ⟨hlone, hread, by decide +kernel, hwritten, hshortest longWindedMap hread⟩

/-- A lone repetition of the seed has a text of one character, and two are written. -/
example : decode ":" = .ok [.seed] ∧ encode [.seed] = "-1" := ⟨rfl, by decide +kernel⟩

end ArtifactAtlas.SourceMap
