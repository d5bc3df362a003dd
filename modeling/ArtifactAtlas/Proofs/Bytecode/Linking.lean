import ArtifactAtlas.Payload.Assembly
import ArtifactAtlas.Proofs.Bytecode.Placeholder

/-!
# Linking to zero

Linking writes zeros over hashed placeholders and then over named ones.  Zeros
can stand in a body but are part of no opening and no closing, so a placeholder
that can be seen in the result was there before, at the same position.  That
position was then scanned without being found, which cannot be.
-/

namespace ArtifactAtlas.Bytecode

/-! ## Texts with zeros written over them -/

/-- `new` is `old` with zeros over some of those characters that pass a test. -/
def Overlaid (covered : Char → Bool) (old new : List Char) : Prop :=
  List.Forall₂ (fun a b => b = a ∨ b = '0' ∧ covered a = true) old new

namespace Overlaid

variable {covered : Char → Bool} {old new : List Char}

theorem mono {wider : Char → Bool} (h : Overlaid covered old new)
    (hwider : ∀ c, covered c = true → wider c = true) :
    Overlaid wider old new := by
  refine List.Forall₂.imp ?_ h
  rintro a b (hab | ⟨hb, ha⟩)
  · exact .inl hab
  · exact .inr ⟨hb, hwider a ha⟩

theorem eq_of_zero_not_mem (h : Overlaid covered old new) (hzero : '0' ∉ new) :
    old = new := by
  induction h with
  | nil => rfl
  | cons hab _ ih =>
      simp only [List.mem_cons, not_or] at hzero
      rcases hab with rfl | ⟨rfl, -⟩
      · rw [ih hzero.2]
      · exact absurd rfl hzero.1

theorem all_covered (h : Overlaid covered old new)
    (hnew : ∀ c ∈ new, covered c = true) : ∀ c ∈ old, covered c = true := by
  induction h with
  | nil => simp
  | cons hab _ ih =>
      simp only [List.forall_mem_cons] at hnew ⊢
      refine ⟨?_, ih hnew.2⟩
      rcases hab with rfl | ⟨-, ha⟩
      · exact hnew.1
      · exact ha

theorem exists_eq_append {front back : List Char}
    (h : Overlaid covered old (front ++ back)) :
    ∃ front' back', old = front' ++ back' ∧
      Overlaid covered front' front ∧ Overlaid covered back' back :=
  ⟨old.take front.length, old.drop front.length,
    (List.take_append_drop _ _).symm,
    List.forall₂_take_append old front back h,
    List.forall₂_drop_append old front back h⟩

theorem getElem?_eq (h : Overlaid covered old new) {k : Nat} {c : Char}
    (hc : new[k]? = some c) : c = '0' ∨ old[k]? = some c := by
  induction h generalizing k with
  | nil => simp at hc
  | cons hab _ ih =>
      cases k with
      | zero =>
          simp only [List.getElem?_cons_zero, Option.some.injEq] at hc ⊢
          subst hc
          rcases hab with rfl | ⟨hb, -⟩
          · exact .inr rfl
          · exact .inl hb
      | succ k => exact ih hc

end Overlaid

namespace Placeholder

variable {kind : Placeholder} {old new : List Char}

theorem Fits.of_overlaid (h : kind.Fits new)
    (hoverlaid : Overlaid kind.mayHold old new) : kind.Fits old := by
  obtain ⟨body, hlength, hbody, rfl⟩ := h
  obtain ⟨front, closing, rfl, hfront, hclosing⟩ := hoverlaid.exists_eq_append
  obtain ⟨opening, body', rfl, hopening, hbody'⟩ := hfront.exists_eq_append
  rw [hopening.eq_of_zero_not_mem (zero_not_mem_opening kind),
    hclosing.eq_of_zero_not_mem (zero_not_mem_closing kind)]
  exact ⟨body', by rw [hbody'.length_eq, hlength], hbody'.all_covered hbody, rfl⟩

theorem begins_of_overlaid (hoverlaid : Overlaid kind.mayHold old new)
    (h : kind.begins new = true) : kind.begins old = true := by
  obtain ⟨found, rest, hfits, rfl⟩ := begins_iff.mp h
  obtain ⟨found', rest', rfl, hfound, -⟩ := hoverlaid.exists_eq_append
  exact begins_append (hfits.of_overlaid hfound) rest'

theorem occurs_of_overlaid (hoverlaid : Overlaid kind.mayHold old new)
    (h : kind.occurs new = true) : kind.occurs old = true := by
  induction hoverlaid with
  | nil => exact h
  | cons hab htail ih =>
      simp only [occurs, Bool.or_eq_true] at h ⊢
      rcases h with h | h
      · exact .inl (begins_of_overlaid (.cons hab htail) h)
      · exact .inr (ih h)

/-! ## One kind of placeholder -/

theorem overlaid_zeroed (kind : Placeholder) (text : List Char) :
    Overlaid kind.mayHold text (kind.zeroed 0 text) := by
  induction text using scan_induction kind with
  | done => exact .nil
  | placeholder found rest hfits ih =>
      rw [zeroed_append hfits, ← hfits.length]
      refine List.rel_append ?_ ih
      have hcovered := hfits.mayHold
      clear hfits ih
      induction found with
      | nil => exact .nil
      | cons c found ih =>
          simp only [List.forall_mem_cons] at hcovered
          exact .cons (.inr ⟨rfl, hcovered.1⟩) (ih hcovered.2)
  | other c rest hbegins ih =>
      rw [zeroed_cons hbegins]
      exact .cons (.inl rfl) ih

theorem occurs_zeroed (kind : Placeholder) (text : List Char) :
    kind.occurs (kind.zeroed 0 text) = false := by
  induction text using scan_induction kind with
  | done => rfl
  | placeholder found rest hfits ih =>
      rw [zeroed_append hfits, occurs_replicate_zero_append, ih]
  | other c rest hbegins ih =>
      have hoverlaid : Overlaid kind.mayHold (c :: rest) (c :: kind.zeroed 0 rest) :=
        .cons (.inl rfl) (overlaid_zeroed kind rest)
      have hnone : kind.begins (c :: kind.zeroed 0 rest) = false := by
        rw [Bool.eq_false_iff] at hbegins ⊢
        exact fun h => hbegins (begins_of_overlaid hoverlaid h)
      rw [zeroed_cons hbegins, occurs, hnone, ih, Bool.or_false]

theorem zeroed_eq_self {text : List Char} (h : kind.occurs text = false) :
    kind.zeroed 0 text = text := by
  induction text with
  | nil => rfl
  | cons c rest ih =>
      simp only [occurs, Bool.or_eq_false_iff] at h
      rw [zeroed_cons h.1, ih h.2]

end Placeholder

/-! ## Both kinds -/

theorem not_hashed_occurs_after_named {text : List Char}
    (h : Placeholder.hashed.occurs text = false) :
    Placeholder.hashed.occurs (Placeholder.named.zeroed 0 text) = false := by
  have hoverlaid : Overlaid Placeholder.hashed.mayHold text
      (Placeholder.named.zeroed 0 text) := by
    refine (Placeholder.overlaid_zeroed .named text).mono fun c hc => ?_
    have hfeed : Text.isWordChar '\n' = false := by decide
    have hne : c ≠ '\n' := by
      rintro rfl
      exact absurd hc (by simp [Placeholder.mayHold, hfeed])
    simpa [Placeholder.mayHold] using hne
  rw [Bool.eq_false_iff] at h ⊢
  exact fun hoccurs => h (Placeholder.occurs_of_overlaid hoverlaid hoccurs)

theorem hasPlaceholders_linkToZero (code : String) :
    hasPlaceholders (linkToZero code) = false := by
  have hhashed := not_hashed_occurs_after_named
    (Placeholder.occurs_zeroed .hashed code.toList)
  have hnamed := Placeholder.occurs_zeroed .named
    (Placeholder.hashed.zeroed 0 code.toList)
  rw [hasPlaceholders, linkToZero, String.toList_ofList, hhashed, hnamed,
    Bool.or_false]

theorem linkToZero_eq_self {code : String} (h : hasPlaceholders code = false) :
    linkToZero code = code := by
  rw [hasPlaceholders, Bool.or_eq_false_iff] at h
  rw [linkToZero, Placeholder.zeroed_eq_self h.1,
    Placeholder.zeroed_eq_self h.2, String.ofList_toList]

theorem linkToZero_linkToZero (code : String) :
    linkToZero (linkToZero code) = linkToZero code :=
  linkToZero_eq_self (hasPlaceholders_linkToZero code)

theorem length_linkToZero (code : String) :
    (linkToZero code).length = code.length := by
  have hhashed := (Placeholder.overlaid_zeroed .hashed code.toList).length_eq
  have hnamed := (Placeholder.overlaid_zeroed .named
    (Placeholder.hashed.zeroed 0 code.toList)).length_eq
  rw [linkToZero, String.length_ofList, ← hnamed, ← hhashed, String.length_toList]

theorem getElem?_linkToZero {code : String} {k : Nat} {c : Char}
    (h : (linkToZero code).toList[k]? = some c) :
    c = '0' ∨ code.toList[k]? = some c := by
  rw [linkToZero, String.toList_ofList] at h
  rcases (Placeholder.overlaid_zeroed .named _).getElem?_eq h with hc | h
  · exact .inl hc
  · exact (Placeholder.overlaid_zeroed .hashed _).getElem?_eq h

theorem linkToZero_eq_self_of_length_lt {code : String} (h : code.length < addressLength) :
    linkToZero code = code := by
  have hlength : code.toList.length < addressLength := by rwa [String.length_toList]
  apply linkToZero_eq_self
  rw [hasPlaceholders, Placeholder.not_occurs_of_length_lt hlength,
    Placeholder.not_occurs_of_length_lt hlength, Bool.or_false]

theorem linkedCode_eq_linkToZero (code : String) :
    Contract.linkedCode code = linkToZero code := by
  rw [Contract.linkedCode]
  split
  · rfl
  case isFalse h => rw [linkToZero_eq_self (by simpa using h)]

/--
Linking to zero leaves no placeholder and keeps every character in its place or
makes it a zero.  A code without placeholders stays as it is, so that looking
for them first makes no difference.
-/
theorem linkToZero_leaves_no_placeholder (code : String) :
    hasPlaceholders (linkToZero code) = false ∧
    linkToZero (linkToZero code) = linkToZero code ∧
    (linkToZero code).length = code.length ∧
    (∀ (k : Nat) (c : Char), (linkToZero code).toList[k]? = some c →
      c = '0' ∨ code.toList[k]? = some c) ∧
    (hasPlaceholders code = false → linkToZero code = code) ∧
    Contract.linkedCode code = linkToZero code :=
  ⟨hasPlaceholders_linkToZero code, linkToZero_linkToZero code,
    length_linkToZero code, fun _ _ => getElem?_linkToZero,
    linkToZero_eq_self, linkedCode_eq_linkToZero code⟩

end ArtifactAtlas.Bytecode
