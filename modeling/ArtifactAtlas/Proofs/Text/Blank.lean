import ArtifactAtlas.Text.CharClass
import Mathlib.Data.List.DropRight

/-!
# Texts without the blanks around them

Trimming takes nothing off a text that neither begins nor ends with a blank, and
leaves such a text; blanks around a text make no difference to it.
-/

namespace ArtifactAtlas.Text

theorem trimEnd_eq (text : List Char) : trimEnd text = text.rdropWhile isBlank := rfl

theorem trimEnd_append {text after : List Char} (h : ∀ c ∈ after, isBlank c = true) :
    trimEnd (text ++ after) = trimEnd text := by
  have hreverse : ∀ c ∈ after.reverse, isBlank c = true := by simpa using h
  rw [trimEnd, trimEnd, dropTrailing, dropTrailing, List.reverse_append,
    List.dropWhile_append_of_pos hreverse]

theorem trim_surrounded {before after : List Char} (hbefore : ∀ c ∈ before, isBlank c = true)
    (hafter : ∀ c ∈ after, isBlank c = true) (text : List Char) :
    trim (before ++ text ++ after) = trim text := by
  rw [List.append_assoc, trim, List.dropWhile_append_of_pos hbefore, List.dropWhile_append]
  by_cases hblank : text.dropWhile isBlank = []
  · have hnone : after.dropWhile isBlank = [] := List.dropWhile_eq_nil_iff.mpr hafter
    simp [hblank, hnone, trim]
  · rw [if_neg (by simpa using hblank), trimEnd_append hafter, trim]

theorem trim_eq_self {text : List Char} (hhead : ∀ c ∈ text.head?, isBlank c = false)
    (hlast : ∀ c ∈ text.getLast?, isBlank c = false) : trim text = text := by
  have hfront : text.dropWhile isBlank = text := by
    cases text with
    | nil => rfl
    | cons c rest => simp [hhead c rfl]
  rw [trim, hfront, trimEnd_eq, List.rdropWhile_eq_self_iff]
  intro hne
  simp [hlast _ (List.getLast_mem_getLast? hne)]

theorem trim_of_forall {text : List Char} (h : ∀ c ∈ text, isBlank c = false) :
    trim text = text :=
  trim_eq_self (fun c hc => h c (List.mem_of_mem_head? hc))
    (fun c hc => h c (List.mem_of_mem_getLast? hc))

theorem not_isBlank_head_trim {text : List Char} {c : Char} (h : c ∈ (trim text).head?) :
    isBlank c = false := by
  obtain ⟨after, hafter⟩ := List.rdropWhile_prefix isBlank (text.dropWhile isBlank)
  rw [← trimEnd_eq, ← trim] at hafter
  have hhead := List.head?_dropWhile_not isBlank text
  rw [← hafter, List.head?_append, Option.mem_def.mp h] at hhead
  exact hhead

theorem not_isBlank_getLast_trim {text : List Char} {c : Char}
    (h : c ∈ (trim text).getLast?) : isBlank c = false := by
  obtain ⟨hne, rfl⟩ := List.mem_getLast?_eq_getLast h
  exact Bool.eq_false_iff.mpr
    (List.rdropWhile_last_not isBlank (text.dropWhile isBlank) hne)

theorem trim_trim (text : List Char) : trim (trim text) = trim text :=
  trim_eq_self (fun _ => not_isBlank_head_trim) (fun _ => not_isBlank_getLast_trim)

/-! ## Digits among other characters -/

theorem CharRanges.not_contains_of_disjoint {ranges others : CharRanges}
    (h : ∀ range ∈ ranges, ∀ other ∈ others, range.2 < other.1 ∨ other.2 < range.1) {c : Char}
    (hc : ranges.contains c = true) : others.contains c = false := by
  simp only [CharRanges.contains, List.any_eq_true, List.any_eq_false, Bool.and_eq_true,
    decide_eq_true_eq] at hc ⊢
  obtain ⟨range, hrange, hlow, hhigh⟩ := hc
  intro other hother
  have := h range hrange other hother
  omega

/-- The decimal digits of any script, those of ASCII among them. -/
theorem contains_of_isDigitChar {c : Char} (h : isDigitChar c = true) :
    CharRanges.contains ((0x30, 0x39) :: digitRanges) c = true := by
  rw [isDigitChar] at h
  split at h
  · have hdigit : 0x30 ≤ c.toNat ∧ c.toNat ≤ 0x39 := by
      simpa [Char.isDigit, UInt32.le_iff_toNat_le] using h
    simp [CharRanges.contains, hdigit]
  · simp only [CharRanges.contains, List.any_cons] at h ⊢
    rw [h, Bool.or_true]

theorem not_isBlank_of_isDigitChar {c : Char} (h : isDigitChar c = true) : isBlank c = false :=
  CharRanges.not_contains_of_disjoint (by decide) (contains_of_isDigitChar h)

end ArtifactAtlas.Text
