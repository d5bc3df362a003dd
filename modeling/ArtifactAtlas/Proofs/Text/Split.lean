import ArtifactAtlas.Text.Split

/-!
# Splitting undoes joining

Pieces that do not hold the separator come back from the text they are joined
to.  The one exception is the empty list, whose text reads as a single empty
piece; for a reader that takes a missing piece as an empty one, even that makes
no difference.
-/

namespace ArtifactAtlas.Text

variable {sep : Char}

@[simp] theorem prepend_ne_nil (c : Char) (pieces : List (List Char)) :
    prepend c pieces ≠ [] := by
  cases pieces <;> simp [prepend]

@[simp] theorem split_ne_nil (sep : Char) (text : List Char) :
    split sep text ≠ [] := by
  cases text with
  | nil => simp [split]
  | cons c rest =>
      rw [split]
      split <;> simp

theorem split_of_not_mem {piece : List Char} (h : sep ∉ piece) :
    split sep piece = [piece] := by
  induction piece with
  | nil => rfl
  | cons c rest ih =>
      simp only [List.mem_cons, not_or] at h
      rw [split, if_neg (Ne.symm h.1), ih h.2, prepend]

theorem split_append {piece : List Char} (h : sep ∉ piece) (rest : List Char) :
    split sep (piece ++ sep :: rest) = piece :: split sep rest := by
  induction piece with
  | nil => simp [split]
  | cons c piece ih =>
      simp only [List.mem_cons, not_or] at h
      rw [List.cons_append, split, if_neg (Ne.symm h.1), ih h.2, prepend]

theorem split_append_of_split {front text piece : List Char} {rest : List (List Char)}
    (h : sep ∉ front) (htext : split sep text = piece :: rest) :
    split sep (front ++ text) = (front ++ piece) :: rest := by
  induction front with
  | nil => exact htext
  | cons c front ih =>
      simp only [List.mem_cons, not_or] at h
      rw [List.cons_append, split, if_neg (Ne.symm h.1), ih h.2]
      rfl

theorem split_append_cons_sep (front back : List Char) :
    split sep (front ++ sep :: back) = split sep front ++ split sep back := by
  induction front with
  | nil => simp [split]
  | cons c front ih =>
      rw [List.cons_append, split, split, ih]
      by_cases hc : c = sep
      · rw [if_pos hc, if_pos hc, List.cons_append]
      · rw [if_neg hc, if_neg hc]
        cases hfront : split sep front with
        | nil => exact absurd hfront (split_ne_nil sep front)
        | cons piece rest => rfl

theorem split_join {pieces : List (List Char)} (hne : pieces ≠ [])
    (h : ∀ piece ∈ pieces, sep ∉ piece) :
    split sep (join [sep] pieces) = pieces := by
  induction pieces with
  | nil => contradiction
  | cons piece rest ih =>
      have hpiece : sep ∉ piece := h piece List.mem_cons_self
      cases rest with
      | nil => exact split_of_not_mem hpiece
      | cons next rest =>
          have hrest : ∀ p ∈ next :: rest, sep ∉ p := fun p hp =>
            h p (List.mem_cons_of_mem _ hp)
          rw [join, List.append_assoc, List.singleton_append,
            split_append hpiece, ih (by simp) hrest]

theorem not_mem_of_mem_split {text piece : List Char} (h : piece ∈ split sep text) :
    sep ∉ piece := by
  induction text generalizing piece with
  | nil =>
      rw [split, List.mem_singleton] at h
      simp [h]
  | cons c rest ih =>
      rw [split] at h
      split at h
      case isTrue =>
        rcases List.mem_cons.mp h with rfl | h
        · exact List.not_mem_nil
        · exact ih h
      case isFalse hne =>
        cases hrest : split sep rest with
        | nil => exact absurd hrest (split_ne_nil sep rest)
        | cons first pieces =>
            rw [hrest] at h ih
            rcases List.mem_cons.mp h with rfl | h
            · rw [List.mem_cons, not_or]
              exact ⟨Ne.symm hne, ih List.mem_cons_self⟩
            · exact ih (List.mem_cons_of_mem _ h)

theorem sublist_of_mem_split {text piece : List Char} (h : piece ∈ split sep text) :
    piece.Sublist text := by
  induction text generalizing piece with
  | nil =>
      rw [split, List.mem_singleton] at h
      exact h ▸ List.nil_sublist _
  | cons c rest ih =>
      rw [split] at h
      split at h
      case isTrue =>
        rcases List.mem_cons.mp h with rfl | h
        · exact List.nil_sublist _
        · exact (ih h).cons c
      case isFalse =>
        cases hrest : split sep rest with
        | nil => exact absurd hrest (split_ne_nil sep rest)
        | cons first pieces =>
            rw [hrest] at h ih
            rcases List.mem_cons.mp h with rfl | h
            · exact (ih List.mem_cons_self).cons_cons c
            · exact (ih (List.mem_cons_of_mem _ h)).cons c

theorem join_split (sep : Char) (text : List Char) : join [sep] (split sep text) = text := by
  induction text with
  | nil => rfl
  | cons c rest ih =>
      cases hrest : split sep rest with
      | nil => exact absurd hrest (split_ne_nil sep rest)
      | cons first pieces =>
          rw [hrest] at ih
          rw [split, hrest]
          split
          case isTrue heq => rw [join, List.nil_append, ih, heq, List.singleton_append]
          case isFalse =>
            cases pieces with
            | nil => rw [prepend, join, ← ih, join]
            | cons next rest => rw [prepend, join, ← ih, join]; rfl

theorem joinStrings_splitString (sep : Char) (text : String) :
    joinStrings (String.singleton sep) (splitString sep text) = text := by
  have hpieces : ((split sep text.toList).map String.ofList).map String.toList =
      split sep text.toList := by
    simp [Function.comp_def]
  rw [joinStrings, splitString, hpieces, String.toList_singleton, join_split,
    String.ofList_toList]

theorem length_prepend {pieces : List (List Char)} (h : pieces ≠ []) (c : Char) :
    (prepend c pieces).length = pieces.length := by
  cases pieces with
  | nil => contradiction
  | cons piece rest => simp [prepend]

theorem length_split (sep : Char) (text : List Char) :
    (split sep text).length = text.count sep + 1 := by
  induction text with
  | nil => simp [split]
  | cons c rest ih =>
      rw [split]
      split
      · simp_all
      · rw [length_prepend (split_ne_nil sep rest), ih]
        simp_all

/-- A piece stands behind as many separators as there are pieces before it, up to the next
separator or the end. -/
theorem exists_split_place {text piece : List Char} {n : Nat}
    (h : (split sep text)[n]? = some piece) :
    ∃ before after, text = before ++ piece ++ after ∧ before.count sep = n ∧
      (before = [] ∨ ∃ front, before = front ++ [sep]) ∧
      (after = [] ∨ ∃ back, after = sep :: back) := by
  induction text generalizing n piece with
  | nil =>
      cases n with
      | zero =>
          obtain rfl : [] = piece := by simpa [split] using h
          exact ⟨[], [], rfl, rfl, .inl rfl, .inl rfl⟩
      | succ n => simp [split] at h
  | cons c rest ih =>
      rw [split] at h
      split at h
      case isTrue hc =>
        subst hc
        cases n with
        | zero =>
            obtain rfl : [] = piece := by simpa using h
            exact ⟨[], c :: rest, rfl, rfl, .inl rfl, .inr ⟨rest, rfl⟩⟩
        | succ n =>
            obtain ⟨before, after, rfl, hcount, hbefore, hafter⟩ := ih h
            refine ⟨c :: before, after, rfl, by simp [hcount], .inr ?_, hafter⟩
            rcases hbefore with rfl | ⟨front, rfl⟩
            · exact ⟨[], rfl⟩
            · exact ⟨c :: front, rfl⟩
      case isFalse hc =>
        cases hrest : split sep rest with
        | nil => exact absurd hrest (split_ne_nil sep rest)
        | cons first pieces =>
            rw [hrest, prepend] at h
            rw [hrest] at ih
            cases n with
            | zero =>
                obtain rfl : c :: first = piece := by simpa using h
                obtain ⟨before, after, rfl, hcount, hbefore, hafter⟩ := ih List.getElem?_cons_zero
                -- a separator before the first piece would be counted
                obtain rfl : before = [] := by
                  rcases hbefore with rfl | ⟨front, rfl⟩
                  · rfl
                  · simp at hcount
                exact ⟨[], after, rfl, rfl, .inl rfl, hafter⟩
            | succ n =>
                have hpiece : (first :: pieces)[n + 1]? = some piece := h
                obtain ⟨before, after, rfl, hcount, hbefore, hafter⟩ := ih hpiece
                refine ⟨c :: before, after, rfl, by simp [hc, hcount], .inr ?_, hafter⟩
                rcases hbefore with rfl | ⟨front, rfl⟩
                · simp at hcount
                · exact ⟨c :: front, rfl⟩

/-! ## What a joined text holds -/

theorem mem_join {sep : List Char} {pieces : List (List Char)} {c : Char}
    (h : c ∈ join sep pieces) : c ∈ sep ∨ ∃ piece ∈ pieces, c ∈ piece := by
  induction pieces with
  | nil => simp [join] at h
  | cons piece rest ih =>
      cases rest with
      | nil => exact .inr ⟨piece, List.mem_cons_self, h⟩
      | cons next rest =>
          simp only [join, List.mem_append] at h
          rcases h with (h | h) | h
          · exact .inr ⟨piece, List.mem_cons_self, h⟩
          · exact .inl h
          · rcases ih h with h | ⟨p, hp, h⟩
            · exact .inl h
            · exact .inr ⟨p, List.mem_cons_of_mem _ hp, h⟩

theorem join_eq_nil_iff {pieces : List (List Char)} :
    join [sep] pieces = [] ↔ pieces = [] ∨ pieces = [[]] := by
  match pieces with
  | [] => simp [join]
  | [piece] => simp [join]
  | piece :: next :: rest => simp [join]

theorem head?_join_cons {sep piece : List Char} (h : piece ≠ []) (rest : List (List Char)) :
    (join sep (piece :: rest)).head? = piece.head? := by
  cases piece with
  | nil => contradiction
  | cons c piece => cases rest <;> rfl

/-! ## Pieces by position -/

/-- The piece at a position; beyond the last one there are only empty pieces. -/
def pieceAt (pieces : List (List Char)) (k : Nat) : List Char :=
  pieces[k]?.getD []

theorem pieceAt_split_join {pieces : List (List Char)}
    (h : ∀ piece ∈ pieces, sep ∉ piece) (k : Nat) :
    pieceAt (split sep (join [sep] pieces)) k = pieceAt pieces k := by
  by_cases hne : pieces = []
  · subst hne
    cases k <;> simp [join, split, pieceAt]
  · rw [split_join hne h]

theorem length_split_join_le {pieces : List (List Char)}
    (h : ∀ piece ∈ pieces, sep ∉ piece) :
    (split sep (join [sep] pieces)).length ≤ max 1 pieces.length := by
  by_cases hne : pieces = []
  · subst hne
    simp [join, split]
  · rw [split_join hne h]
    exact Nat.le_max_right _ _

theorem dropTrailingEmpty_cons_of_empty {rest : List (List Char)}
    (h : dropTrailingEmpty rest = []) : dropTrailingEmpty ([] :: rest) = [] := by
  simp [dropTrailingEmpty, h]

theorem dropTrailingEmpty_cons {piece : List Char} {rest : List (List Char)}
    (h : ¬ (piece = [] ∧ dropTrailingEmpty rest = [])) :
    dropTrailingEmpty (piece :: rest) = piece :: dropTrailingEmpty rest := by
  rw [dropTrailingEmpty]
  exact fun hpiece hrest => h ⟨hpiece, hrest⟩

theorem pieceAt_dropTrailingEmpty (pieces : List (List Char)) (k : Nat) :
    pieceAt (dropTrailingEmpty pieces) k = pieceAt pieces k := by
  induction pieces generalizing k with
  | nil => rfl
  | cons piece rest ih =>
      by_cases h : piece = [] ∧ dropTrailingEmpty rest = []
      · obtain ⟨rfl, hrest⟩ := h
        rw [dropTrailingEmpty_cons_of_empty hrest]
        cases k with
        | zero => rfl
        | succ k => simpa [hrest, pieceAt] using ih k
      · rw [dropTrailingEmpty_cons h]
        cases k with
        | zero => rfl
        | succ k => simpa [pieceAt] using ih k

theorem dropTrailingEmpty_sublist (pieces : List (List Char)) :
    (dropTrailingEmpty pieces).Sublist pieces := by
  induction pieces with
  | nil => simp [dropTrailingEmpty]
  | cons piece rest ih =>
      by_cases h : piece = [] ∧ dropTrailingEmpty rest = []
      · obtain ⟨rfl, hrest⟩ := h
        rw [dropTrailingEmpty_cons_of_empty hrest]
        exact List.nil_sublist _
      · rw [dropTrailingEmpty_cons h]
        exact ih.cons_cons piece

/-! ## Short texts -/

theorem length_join_cons_of_ne_nil (sep : Char) (piece : List Char)
    {rest : List (List Char)} (h : rest ≠ []) :
    (join [sep] (piece :: rest)).length = piece.length + 1 + (join [sep] rest).length := by
  cases rest with
  | nil => contradiction
  | cons next rest => rw [join, List.length_append, List.length_append, List.length_singleton]

theorem length_le_length_join_cons (sep : List Char) (piece : List Char)
    (rest : List (List Char)) : piece.length ≤ (join sep (piece :: rest)).length := by
  cases rest with
  | nil => exact Nat.le_refl _
  | cons next rest => rw [join, List.append_assoc, List.length_append]; exact Nat.le_add_right _ _

theorem dropTrailingEmpty_eq_nil {pieces : List (List Char)}
    (h : ∀ k, pieceAt pieces k = []) : dropTrailingEmpty pieces = [] := by
  induction pieces with
  | nil => rfl
  | cons piece rest ih =>
      obtain rfl : piece = [] := h 0
      exact dropTrailingEmpty_cons_of_empty (ih fun k => h (k + 1))

/-- A text whose pieces are nowhere shorter is no shorter than without the empty pieces at
the end: the separators before the last piece that is not empty are in both. -/
theorem length_join_dropTrailingEmpty_le (sep : Char) {pieces others : List (List Char)}
    (h : ∀ k, (pieceAt pieces k).length ≤ (pieceAt others k).length) :
    (join [sep] (dropTrailingEmpty pieces)).length ≤ (join [sep] others).length := by
  induction pieces generalizing others with
  | nil => exact Nat.zero_le _
  | cons piece rest ih =>
      by_cases hempty : piece = [] ∧ dropTrailingEmpty rest = []
      · rw [hempty.1, dropTrailingEmpty_cons_of_empty hempty.2]
        exact Nat.zero_le _
      rw [dropTrailingEmpty_cons hempty]
      cases others with
      | nil =>
          have hnil : ∀ k, pieceAt (piece :: rest) k = [] := fun k =>
            List.length_eq_zero_iff.mp (Nat.le_zero.mp (h k))
          exact absurd ⟨hnil 0, dropTrailingEmpty_eq_nil fun k => hnil (k + 1)⟩ hempty
      | cons other others =>
          have hpiece : piece.length ≤ other.length := h 0
          have hrest : ∀ k, (pieceAt rest k).length ≤ (pieceAt others k).length :=
            fun k => h (k + 1)
          by_cases hkept : dropTrailingEmpty rest = []
          · rw [hkept]
            exact Nat.le_trans hpiece (length_le_length_join_cons [sep] other others)
          · have hothers : others ≠ [] := by
              rintro rfl
              refine hkept (dropTrailingEmpty_eq_nil fun k => ?_)
              exact List.length_eq_zero_iff.mp (Nat.le_zero.mp (hrest k))
            have hle := ih hrest
            rw [length_join_cons_of_ne_nil sep piece hkept,
              length_join_cons_of_ne_nil sep other hothers]
            omega

end ArtifactAtlas.Text
