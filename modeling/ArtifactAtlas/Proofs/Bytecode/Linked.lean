import ArtifactAtlas.Proofs.Bytecode.References

/-!
# Linking segment by segment

However the segments of an unlinked code follow one another, linking puts an
address in the place of each placeholder and leaves the digits between them
alone.  A code is still to be linked as long as one of its segments is a
placeholder.
-/

namespace ArtifactAtlas.Bytecode

/-! ## What stands in the place of a segment -/

/-- The digits of a segment, or the address zero in the place of a placeholder. -/
def Segment.linkedText : Segment → List Char
  | code digits _ => digits
  | placeholder _ _ _ _ => List.replicate addressLength '0'

theorem Segment.text_linkIf_all (segment : Segment) :
    (segment.linkIf fun _ => true).text = segment.linkedText := by
  cases segment <;> simp [linkIf, text, linkedText]

theorem Unlinked.linked_eq (code : Unlinked) :
    code.linked = String.ofList (code.lead ++ code.segments.flatMap Segment.linkedText) := by
  rw [linked, Segments.text, Segments.linkIf, List.flatMap_map]
  simp only [Segment.text_linkIf_all]

/-! ## Whether there is a placeholder -/

theorem Placeholder.occurs_append_of_occurs {kind : Placeholder} {rest : List Char}
    (h : kind.occurs rest = true) (front : List Char) :
    kind.occurs (front ++ rest) = true := by
  induction front with
  | nil => exact h
  | cons c front ih => rw [List.cons_append, occurs, ih, Bool.or_true]

theorem Placeholder.occurs_of_begins {kind : Placeholder} {text : List Char}
    (h : kind.begins text = true) : kind.occurs text = true := by
  cases text with
  | nil =>
      obtain ⟨found, rest, hfits, heq⟩ := begins_iff.mp h
      obtain ⟨tail, rfl⟩ := hfits.exists_eq_underscore_cons
      cases heq
  | cons c rest => rw [occurs, h, Bool.true_or]

theorem Placeholder.not_occurs_of_underscore_not_mem {text : List Char} (h : '_' ∉ text)
    (kind : Placeholder) : kind.occurs text = false := by
  induction text with
  | nil => rfl
  | cons c rest ih =>
      simp only [List.mem_cons, not_or] at h
      rw [occurs, begins_cons_of_ne (Ne.symm h.1), ih h.2, Bool.or_false]

namespace Segments

theorem occurs_text_of_mem {segments : Segments} {segment : Segment} {kind : Placeholder}
    (hmem : segment ∈ segments) (hkind : segment.kind? = some kind) :
    kind.occurs (text segments) = true := by
  obtain ⟨before, after, rfl⟩ := List.append_of_mem hmem
  cases segment with
  | code digits isHex => cases hkind
  | placeholder other body length written =>
      obtain rfl : other = kind := Option.some.inj hkind
      have hbegins := Placeholder.begins_append
        (Placeholder.fits_of_writes length written) (text after)
      have htext : text (before ++ .placeholder other body length written :: after) =
          text before ++ (other.opening ++ body ++ other.closing ++ text after) := by
        simp [text, Segment.text]
      rw [htext]
      exact Placeholder.occurs_append_of_occurs (Placeholder.occurs_of_begins hbegins) _

theorem underscore_not_mem_text {segments : Segments}
    (h : ∀ segment ∈ segments, segment.kind? = none) : '_' ∉ text segments := by
  intro hmem
  obtain ⟨segment, hsegment, hmem⟩ := List.mem_flatMap.mp hmem
  cases segment with
  | code digits isHex => exact underscore_not_mem_of_isHexDigit isHex hmem
  | placeholder kind body length written => cases h _ hsegment

end Segments

namespace Unlinked

theorem hasPlaceholders_text_iff (code : Unlinked) :
    hasPlaceholders code.text = true ↔ ∃ segment ∈ code.segments, segment.kind? ≠ none := by
  rw [hasPlaceholders, text, String.toList_ofList]
  constructor
  · intro hoccurs
    by_contra hnone
    push Not at hnone
    have hunderscore : '_' ∉ code.lead ++ Segments.text code.segments := by
      rw [List.mem_append, not_or]
      exact ⟨code.underscore_not_mem_lead, Segments.underscore_not_mem_text hnone⟩
    rw [Placeholder.not_occurs_of_underscore_not_mem hunderscore,
      Placeholder.not_occurs_of_underscore_not_mem hunderscore] at hoccurs
    contradiction
  · rintro ⟨segment, hmem, hkind⟩
    obtain ⟨kind, hkind⟩ := Option.ne_none_iff_exists'.mp hkind
    have hoccurs := Placeholder.occurs_append_of_occurs
      (Segments.occurs_text_of_mem hmem hkind) code.lead
    cases kind with
    | hashed => rw [hoccurs, Bool.true_or]
    | named => rw [hoccurs, Bool.or_true]

end Unlinked

/-! ## Main result -/

/--
Linking an unlinked code keeps its lead and its digits and writes an address of
zeros for each placeholder, in whatever order and however close the segments
follow one another; and the code is taken for an unlinked one exactly when one
of its segments is a placeholder.
-/
theorem linkToZero_replaces_each_placeholder (code : Unlinked) :
    linkToZero code.text =
      String.ofList (code.lead ++ code.segments.flatMap Segment.linkedText) ∧
    (hasPlaceholders code.text = true ↔
      ∃ segment ∈ code.segments, segment.kind? ≠ none) := by
  refine ⟨?_, code.hasPlaceholders_text_iff⟩
  rw [code.linkToZero_text, code.linked_eq]

end ArtifactAtlas.Bytecode
