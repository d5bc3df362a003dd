import ArtifactAtlas.Proofs.Json.Record
import ArtifactAtlas.Proofs.OrderedMap
import ArtifactAtlas.Proofs.Report.Agreement

/-!
# What a report takes from an input

Reading a report asks an input for texts of sources and for nothing else.  A merged
input has the texts of the first input that has the source.
-/

namespace ArtifactAtlas

open Json (FieldFormat Format)

namespace AnalysisInput

/-- The input of an object, whatever else the object has. -/
theorem decode_object {members : List (String × Json)}
    {sources : OrderedMap String InputSource} {sourceList : List String}
    {mainSource : Option String}
    (hsources : (FieldFormat.defaulted "sources" .empty
      (.mapping InputSource.format)).ofMembers? members = some sources)
    (hlist : ((FieldFormat.defaulted "source_list" [] (.list .text)).orNamed
      "sourceList").ofMembers? members = some sourceList)
    (hmain : ((FieldFormat.omittable "main_source" .text).orNamed
      "mainSource").ofMembers? members = some mainSource) :
    format.decode (.object members) = some ⟨sources, sourceList, mainSource⟩ := by
  have hreads := Json.RecordFormat.reads_start (σ := AnalysisInput) AnalysisInput.mk members
  exact (((hreads.field hsources _).field hlist _).field hmain _).complete

theorem get?_sources_extend (input other : AnalysisInput) (path : String) :
    (input.extend other).sources.get? path =
      (input.sources.get? path).or (other.sources.get? path) :=
  OrderedMap.get?_insertNewAll input.sources other.sources.toList path

theorem get?_sources_foldl_extend (input : AnalysisInput) (others : List AnalysisInput)
    (path : String) :
    (others.foldl extend input).sources.get? path =
      (input.sources.get? path).or
        (others.findSome? fun other => other.sources.get? path) := by
  induction others generalizing input with
  | nil => simp
  | cons other rest ih =>
      rw [List.foldl_cons, ih, get?_sources_extend, Option.or_assoc, List.findSome?_cons]
      cases other.sources.get? path <;> rfl

theorem get?_sources_merge (inputs : List AnalysisInput) (path : String) :
    (merge inputs).sources.get? path =
      inputs.findSome? fun input => input.sources.get? path := by
  cases inputs with
  | nil => rfl
  | cons input others =>
      rw [merge, get?_sources_foldl_extend, List.findSome?_cons]
      cases input.sources.get? path <;> rfl

end AnalysisInput

/-! ## Inputs with the same texts -/

variable {input other : AnalysisInput}

theorem decodeIssues_congr (h : ∀ path, input.sourceText? path = other.sourceText? path)
    (reports : List IssueReport) :
    decodeIssues reports input = decodeIssues reports other := by
  have htexts : input.sourceText? = other.sourceText? := funext h
  simp only [decodeIssues, Issue.decode, IssueLocation.resolve?, htexts]

theorem LineIndex.ofReports_congr
    (h : ∀ path, input.sourceText? path = other.sourceText? path)
    (reports : List IssueReport) :
    ofReports reports input = ofReports reports other := by
  apply OrderedMap.eq_of_get?_eq
  intro file
  rw [shows_ofReports reports input file, shows_ofReports reports other file, h file,
    Placement.decoded, Placement.decoded, decodeIssues_congr h reports]

end ArtifactAtlas
