import ArtifactAtlas.Proofs.Report.Input

/-!
# Texts of merged inputs

Of the sources of one path a merged input has the first, whether it comes with a text or
not.  So a text is kept unless an earlier input has the source without one, and it does
not matter in how many rounds inputs are merged.
-/

namespace ArtifactAtlas.AnalysisInput

theorem sourceText?_merge (inputs : List AnalysisInput) (path : String) :
    (merge inputs).sourceText? path =
      (inputs.findSome? fun input => input.sources.get? path).bind (·.source) := by
  rw [sourceText?, get?_sources_merge]

theorem get?_sources_merge_append (inputs others : List AnalysisInput) (path : String) :
    (merge (inputs ++ others)).sources.get? path =
      (merge [merge inputs, merge others]).sources.get? path := by
  simp only [get?_sources_merge, List.findSome?_append, List.findSome?_cons, List.findSome?_nil]
  cases inputs.findSome? fun input => input.sources.get? path with
  | some source => rfl
  | none => cases others.findSome? fun input => input.sources.get? path <;> rfl

/-- The first text is kept exactly if no input before it has the source at all. -/
theorem sourceText?_merge_eq_first_iff {before after : List AnalysisInput}
    {input : AnalysisInput} {path text : String}
    (hbefore : ∀ earlier ∈ before, earlier.sourceText? path = none)
    (htext : input.sourceText? path = some text) :
    (merge (before ++ input :: after)).sourceText? path = some text ↔
      ∀ earlier ∈ before, earlier.sources.get? path = none := by
  rw [sourceText?_merge, List.findSome?_append, ← List.findSome?_eq_none_iff]
  cases hfound : before.findSome? fun earlier => earlier.sources.get? path with
  | none =>
      obtain ⟨source, hsource, hsourceText⟩ := Option.bind_eq_some_iff.mp htext
      simp [hsource, hsourceText]
  | some source =>
      obtain ⟨earlier, hearlier, hsource⟩ := List.exists_of_findSome?_eq_some hfound
      have hnone := hbefore earlier hearlier
      rw [sourceText?, hsource, Option.bind_some] at hnone
      simp [hnone]

/--
A merged input has for each path the text of the first source with that path.  The first
text that some input has is kept exactly if no earlier input has a source there that
comes without one.  Merging in two rounds gives the same texts.
-/
theorem merge_keeps_first_text_unless_source_comes_bare (inputs others : List AnalysisInput)
    (path : String) :
    (merge inputs).sourceText? path =
      (inputs.findSome? fun input => input.sources.get? path).bind (·.source) ∧
    (∀ before input after text, inputs = before ++ input :: after →
      (∀ earlier ∈ before, earlier.sourceText? path = none) →
      input.sourceText? path = some text →
      ((merge inputs).sourceText? path = some text ↔
        ∀ earlier ∈ before, earlier.sources.get? path = none)) ∧
    (merge (inputs ++ others)).sourceText? path =
      (merge [merge inputs, merge others]).sourceText? path := by
  refine ⟨sourceText?_merge inputs path, ?_, ?_⟩
  · rintro before input after text rfl hbefore htext
    exact sourceText?_merge_eq_first_iff hbefore htext
  · rw [sourceText?, sourceText?, get?_sources_merge_append]

/-- An input of one source. -/
def ofSource (path : String) (text : Option String) : AnalysisInput :=
  ⟨.ofList [(path, ⟨text⟩)], [path], none⟩

/-- What other sources an earlier input has does not matter. -/
theorem merge_keeps_text_after_other_source :
    (∀ earlier ∈ [ofSource "a.sol" none], earlier.sourceText? "b.sol" = none) ∧
    (ofSource "b.sol" (some "contract B")).sourceText? "b.sol" = some "contract B" ∧
    (merge [ofSource "a.sol" none, ofSource "b.sol" (some "contract B"),
      ofSource "b.sol" (some "changed")]).sourceText? "b.sol" = some "contract B" := by
  have hbefore : ∀ earlier ∈ [ofSource "a.sol" none], earlier.sourceText? "b.sol" = none := by
    decide
  have htext : (ofSource "b.sol" (some "contract B")).sourceText? "b.sol" =
      some "contract B" := by decide
  obtain ⟨-, hfirst, -⟩ := merge_keeps_first_text_unless_source_comes_bare
    [ofSource "a.sol" none, ofSource "b.sol" (some "contract B"),
      ofSource "b.sol" (some "changed")] [] "b.sol"
  exact ⟨hbefore, htext, (hfirst [ofSource "a.sol" none] _ _ _ rfl hbefore htext).mpr (by decide)⟩

/-- A source that comes without its text hides the one that comes with it. -/
theorem merge_loses_text_after_bare_source :
    (ofSource "a.sol" none).sourceText? "a.sol" = none ∧
    (ofSource "a.sol" (some "contract A")).sourceText? "a.sol" = some "contract A" ∧
    (merge [ofSource "a.sol" none, ofSource "a.sol" (some "contract A")]).sourceText? "a.sol" =
      none := by
  decide

end ArtifactAtlas.AnalysisInput
