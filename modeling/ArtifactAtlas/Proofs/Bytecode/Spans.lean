import ArtifactAtlas.Proofs.Bytecode.Placeholder
import Mathlib.Data.List.Pairwise

/-!
# The spans of link references

A reference covers the bytes from where its placeholder begins to where it ends.
`zerosOver` writes over all that is covered, whichever way the references were
found.
-/

namespace ArtifactAtlas.Bytecode

namespace LinkReference

/-- The byte of the text at which the placeholder ends. -/
def stop (reference : LinkReference) : Nat :=
  reference.start + Placeholder.bytes reference.placeholder.toList

@[simp] theorem stop_mk_ofList (start : Nat) (text : List Char) :
    stop ⟨start, String.ofList text⟩ = start + Placeholder.bytes text := by
  rw [stop, String.toList_ofList]

/-- References in order, each beginning where the one before it has ended. -/
def InOrder (references : List LinkReference) : Prop :=
  references.Pairwise fun a b => a.stop ≤ b.start

theorem InOrder.apart {references : List LinkReference} (h : InOrder references)
    {a b : LinkReference} (ha : a ∈ references) (hb : b ∈ references) (hne : a ≠ b) :
    a.stop ≤ b.start ∨ b.stop ≤ a.start := by
  have hsymm : Std.Symm fun a b : LinkReference => a.stop ≤ b.start ∨ b.stop ≤ a.start :=
    ⟨fun _ _ => Or.symm⟩
  have heither : references.Pairwise fun a b => a.stop ≤ b.start ∨ b.stop ≤ a.start :=
    h.imp .inl
  exact heither.forall ha hb hne

/-- Whether a byte of the text belongs to the placeholder. -/
def covers (reference : LinkReference) (position : Nat) : Bool :=
  reference.start ≤ position && position < reference.stop

end LinkReference

/-- The text from byte `position` on with zeros for all that is covered by a reference. -/
def zerosOver (references : List LinkReference) (position : Nat) : List Char → List Char
  | [] => []
  | c :: rest =>
      (if references.any (·.covers position) then '0' else c) ::
        zerosOver references (position + c.utf8Size) rest

theorem zerosOver_append (references : List LinkReference) (position : Nat)
    (front back : List Char) :
    zerosOver references position (front ++ back) =
      zerosOver references position front ++
        zerosOver references (position + Placeholder.bytes front) back := by
  induction front generalizing position with
  | nil => rfl
  | cons c front ih =>
      simp only [List.cons_append, zerosOver, ih, Placeholder.bytes, Nat.add_assoc]

theorem zerosOver_eq_self {references : List LinkReference} {position : Nat}
    {text : List Char}
    (h : ∀ reference ∈ references, reference.stop ≤ position ∨
      position + Placeholder.bytes text ≤ reference.start) :
    zerosOver references position text = text := by
  induction text generalizing position with
  | nil => rfl
  | cons c rest ih =>
      have hsize : 0 < c.utf8Size := c.utf8Size_pos
      simp only [Placeholder.bytes] at h
      have huncovered : references.any (·.covers position) = false := by
        rw [List.any_eq_false]
        intro reference hmem
        have hreference := h reference hmem
        simp only [LinkReference.covers, Bool.and_eq_true, decide_eq_true_eq]
        omega
      rw [zerosOver, huncovered, ih]
      · rfl
      · intro reference hmem
        have hreference := h reference hmem
        omega

theorem zerosOver_eq_replicate {references : List LinkReference} {position : Nat}
    {text : List Char} {reference : LinkReference} (hmem : reference ∈ references)
    (hstart : reference.start ≤ position)
    (hstop : position + Placeholder.bytes text ≤ reference.stop) :
    zerosOver references position text = List.replicate text.length '0' := by
  induction text generalizing position with
  | nil => rfl
  | cons c rest ih =>
      have hsize : 0 < c.utf8Size := c.utf8Size_pos
      simp only [Placeholder.bytes] at hstop
      have hcovered : references.any (·.covers position) = true := by
        rw [List.any_eq_true]
        refine ⟨reference, hmem, ?_⟩
        simp only [LinkReference.covers, Bool.and_eq_true, decide_eq_true_eq]
        omega
      rw [zerosOver, hcovered, ih (by omega) (by omega)]
      rfl

end ArtifactAtlas.Bytecode
