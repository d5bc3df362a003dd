import ArtifactAtlas.Text.Lossy
import Mathlib.Data.List.Basic

/-!
# Texts and their bytes

An ASCII byte stands in the encoding of its own character and in no other.  Reading
bytes lossily takes the encoding of a text back to the text.  Of other bytes it leaves
every character that is no replacement with all of its bytes, so bytes that are read
without a replacement are the encoding of what is read.
-/

namespace ArtifactAtlas.Text

/-! ## Encodings -/

theorem toNat_toUInt8 {c : Char} (h : c.toNat < 256) : c.toUInt8.toNat = c.toNat := by
  rw [Char.toUInt8, UInt32.toNat_toUInt8]
  exact Nat.mod_eq_of_lt h

theorem utf8EncodeChar_of_ascii {c : Char} (h : c.toNat < 128) :
    String.utf8EncodeChar c = [c.toUInt8] := by
  rw [String.utf8EncodeChar_eq_singleton]
  · rfl
  · rw [Char.utf8Size_eq_one_iff, UInt32.le_iff_toNat_le]
    exact Nat.le_of_lt_succ h

theorem flatMap_utf8EncodeChar_eq_map {text : List Char} (h : ∀ c ∈ text, c.toNat < 128) :
    text.flatMap String.utf8EncodeChar = text.map Char.toUInt8 := by
  induction text with
  | nil => rfl
  | cons c rest ih =>
      rw [List.forall_mem_cons] at h
      rw [List.flatMap_cons, utf8EncodeChar_of_ascii h.1, ih h.2]
      rfl

theorem eq_of_mem_utf8EncodeChar {c d : Char} (hd : d.toNat < 128)
    (h : d.toUInt8 ∈ String.utf8EncodeChar c) : c = d := by
  have hbyte := toNat_toUInt8 (Nat.lt_trans hd (by decide))
  rw [String.utf8EncodeChar] at h
  split_ifs at h
  all_goals simp only [List.mem_cons, List.not_mem_nil, or_false, ← UInt8.toNat_inj, hbyte,
    UInt8.toNat_ofNat'] at h
  · have hval : c.val.toNat = d.val.toNat := by
      have hd' : d.toNat = d.val.toNat := rfl
      omega
    exact Char.ext (UInt32.toNat_inj.mp hval)
  -- the bytes of a longer code are 128 or more
  all_goals omega

theorem toList_data_toUTF8 (text : String) :
    text.toUTF8.data.toList = text.toList.flatMap String.utf8EncodeChar := by
  have hbytes : text.toUTF8 = text.toList.utf8Encode := String.utf8Encode_toList.symm
  rw [hbytes, List.utf8Encode, List.data_toByteArray]

theorem firstChar?_append (c : Char) (rest : List UInt8) :
    firstChar? (String.utf8EncodeChar c ++ rest) = some c := by
  rw [firstChar?, List.toByteArray_append]
  exact ByteArray.utf8DecodeChar?_utf8EncodeChar_append

theorem exists_of_firstChar? {bytes : List UInt8} {c : Char} (h : firstChar? bytes = some c) :
    ∃ rest, bytes = String.utf8EncodeChar c ++ rest := by
  obtain ⟨rest, hrest⟩ := ByteArray.exists_of_utf8DecodeChar?_eq_some h
  refine ⟨rest.data.toList, ?_⟩
  have hlist := congrArg (fun bytes => bytes.data.toList) hrest
  simpa using hlist

/-! ## Reading lossily -/

theorem decodeFrom_length_append (front back : List UInt8) :
    decodeFrom front.length (front ++ back) = lossy back := by
  induction front with
  | nil => rfl
  | cons byte front ih => exact ih

theorem exists_utf8EncodeChar_eq_cons (c : Char) :
    ∃ byte tail, String.utf8EncodeChar c = byte :: tail ∧ tail.length = c.utf8Size - 1 := by
  obtain ⟨byte, tail, hbytes⟩ := List.exists_cons_of_ne_nil
    (String.utf8EncodeChar_ne_nil (c := c))
  refine ⟨byte, tail, hbytes, ?_⟩
  rw [← String.length_utf8EncodeChar, hbytes, List.length_cons, Nat.add_sub_cancel]

theorem lossy_append (c : Char) (rest : List UInt8) :
    lossy (String.utf8EncodeChar c ++ rest) = c :: lossy rest := by
  have hfirst := firstChar?_append c rest
  obtain ⟨byte, tail, hbytes, hlength⟩ := exists_utf8EncodeChar_eq_cons c
  rw [hbytes, List.cons_append] at hfirst ⊢
  rw [lossy, decodeFrom, hfirst]
  simp only [← hlength, decodeFrom_length_append]

theorem lossy_flatMap (text : List Char) :
    lossy (text.flatMap String.utf8EncodeChar) = text := by
  induction text with
  | nil => rfl
  | cons c rest ih => rw [List.flatMap_cons, lossy_append, ih]

theorem lossy_eq_nil_iff {bytes : List UInt8} : lossy bytes = [] ↔ bytes = [] := by
  cases bytes with
  | nil => simp [lossy, decodeFrom]
  | cons byte rest =>
      rw [lossy, decodeFrom]
      split <;> simp

/-- A character that is read has all of its bytes there. -/
theorem subset_of_mem_decodeFrom {read : Nat} {bytes : List UInt8} {c : Char}
    (h : c ∈ decodeFrom read bytes) (hc : c ≠ replacement) :
    String.utf8EncodeChar c ⊆ bytes := by
  induction bytes generalizing read with
  | nil => cases read <;> cases h
  | cons byte rest ih =>
      cases read with
      | succ read => exact List.subset_cons_of_subset _ (ih h)
      | zero =>
          rw [decodeFrom] at h
          split at h
          case h_1 first hfirst =>
            rcases List.mem_cons.mp h with rfl | h
            · obtain ⟨tail, htail⟩ := exists_of_firstChar? hfirst
              rw [htail]
              exact List.subset_append_left _ _
            · exact List.subset_cons_of_subset _ (ih h)
          case h_2 =>
            rcases List.mem_cons.mp h with heq | h
            · contradiction
            · exact List.subset_cons_of_subset _ (ih h)

theorem flatMap_decodeFrom {read : Nat} {bytes : List UInt8}
    (h : replacement ∉ decodeFrom read bytes) :
    (decodeFrom read bytes).flatMap String.utf8EncodeChar = bytes.drop read := by
  induction bytes generalizing read with
  | nil => cases read <;> rfl
  | cons byte rest ih =>
      cases read with
      | succ read => exact ih h
      | zero =>
          rw [decodeFrom] at h ⊢
          split
          case h_1 c hfirst =>
            rw [hfirst] at h
            obtain ⟨byte, tail, hbytes, hlength⟩ := exists_utf8EncodeChar_eq_cons c
            obtain ⟨back, hback⟩ := exists_of_firstChar? hfirst
            rw [hbytes, List.cons_append, List.cons.injEq] at hback
            obtain ⟨rfl, rfl⟩ := hback
            have hdrop : (tail ++ back).drop (c.utf8Size - 1) = back := by
              rw [← hlength, List.drop_left]
            rw [List.flatMap_cons, ih fun hmem => h (List.mem_cons_of_mem _ hmem), hdrop, hbytes]
            rfl
          case h_2 hnone =>
            rw [hnone] at h
            exact absurd List.mem_cons_self h

theorem flatMap_lossy {bytes : List UInt8} (h : replacement ∉ lossy bytes) :
    (lossy bytes).flatMap String.utf8EncodeChar = bytes :=
  flatMap_decodeFrom h

end ArtifactAtlas.Text
