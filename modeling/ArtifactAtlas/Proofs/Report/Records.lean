import ArtifactAtlas.Proofs.Report.Agreement

/-!
# The records of a line index

Reports put issues into a line index and do nothing else to it: which files it has,
their lines and the numbers of these come from the input alone.  What a report adds
does not depend on the reports before it, so an index may be built from parts of a
list of reports.
-/

namespace ArtifactAtlas

namespace LineRecord

def bare (record : LineRecord) : LineRecord :=
  { record with issues := [] }

/-- The record with the issues of another one behind its own. -/
def followedBy (record other : LineRecord) : LineRecord :=
  { record with issues := record.issues ++ other.issues }

end LineRecord

theorem Placement.decoded_append (reports others : List IssueReport) (input : AnalysisInput) :
    decoded (reports ++ others) input = decoded reports input ++ decoded others input := by
  simp [decoded_eq_filterMap, Visit.all]

namespace LineIndex

/-- The index without the issues. -/
def bare (index : LineIndex) : LineIndex :=
  index.mapValues fun _ records => records.map LineRecord.bare

/-- The first index, each of its records followed by the one at its place in the second. -/
def followedBy (first second : LineIndex) : LineIndex :=
  first.mapValues fun file records =>
    List.zipWith LineRecord.followedBy records ((second.get? file).getD [])

/-! ## Without the issues -/

theorem keys_bare (index : LineIndex) : index.bare.keys = index.keys := by
  simp [bare, OrderedMap.keys, OrderedMap.mapValues]

theorem map_bare_annotated (placed : List Placement) (file text : String) :
    (annotated placed file text).map LineRecord.bare = annotated [] file text := by
  simp [annotated, LineRecord.bare, Placement.issuesOn]

theorem bare_ofReports (reports : List IssueReport) (input : AnalysisInput) :
    (ofReports reports input).bare = blank input := by
  apply OrderedMap.eq_of_get?_eq
  intro file
  rw [bare, OrderedMap.get?_mapValues, shows_ofReports reports input file,
    shows_blank input file, Option.map_map]
  congr 1
  funext text
  exact map_bare_annotated _ file text

theorem keys_blank (input : AnalysisInput) :
    (blank input).keys =
      input.sources.keys.filter fun file => (input.sourceText? file).isSome := by
  rw [blank, OrderedMap.keys_filterMapValues]
  congr 1
  funext file
  rw [AnalysisInput.sourceText?]
  cases input.sources.get? file <;> simp

/-! ## The lines of a text -/

theorem map_content_annotated (placed : List Placement) (file text : String) :
    (annotated placed file text).map (·.content) = SourceText.lines text := by
  simp [annotated, Function.comp_def, List.zipIdx_map_fst]

theorem line_of_getElem?_annotated {placed : List Placement} {file text : String} {n : Nat}
    {record : LineRecord} (h : (annotated placed file text)[n]? = some record) :
    record.line = n + 1 := by
  rw [getElem?_annotated, Option.map_eq_some_iff] at h
  obtain ⟨content, -, rfl⟩ := h
  rfl

/-! ## More reports -/

theorem annotated_append_eq_zipWith (placed others : List Placement) (file text : String) :
    annotated (placed ++ others) file text =
      List.zipWith LineRecord.followedBy (annotated placed file text)
        (annotated others file text) := by
  apply List.ext_getElem?
  intro n
  rw [List.getElem?_zipWith, getElem?_annotated, getElem?_annotated, getElem?_annotated]
  cases (SourceText.lines text)[n]? <;> simp [LineRecord.followedBy, Placement.issuesOn]

theorem ofReports_append (reports others : List IssueReport) (input : AnalysisInput) :
    ofReports (reports ++ others) input =
      (ofReports reports input).followedBy (ofReports others input) := by
  apply OrderedMap.eq_of_get?_eq
  intro file
  rw [followedBy, OrderedMap.get?_mapValues, shows_ofReports, shows_ofReports, shows_ofReports,
    Placement.decoded_append]
  cases input.sourceText? file with
  | none => rfl
  | some text => simp [annotated_append_eq_zipWith]

/-! ## Main result -/

/--
Every source with a text has its lines in the index, numbered from one, whatever the
reports are; issues aside, the index is the same for all of them.  The reports of two
lists together put the issues of the second behind those of the first.
-/
theorem ofReports_only_attaches_issues (reports others : List IssueReport)
    (input : AnalysisInput) :
    (ofReports reports input).keys =
      input.sources.keys.filter (fun file => (input.sourceText? file).isSome) ∧
    (∀ file text, input.sourceText? file = some text →
      ∃ records, (ofReports reports input).get? file = some records ∧
        Text.joinStrings "\n" (records.map (·.content)) = text ∧
        ∀ n record, records[n]? = some record → record.line = n + 1) ∧
    (ofReports reports input).bare = (ofReports others input).bare ∧
    ofReports (reports ++ others) input =
      (ofReports reports input).followedBy (ofReports others input) := by
  refine ⟨?_, ?_, ?_, ofReports_append reports others input⟩
  · rw [← keys_bare, bare_ofReports, keys_blank]
  · intro file text htext
    have hrecords := shows_ofReports reports input file
    rw [htext, Option.map_some] at hrecords
    refine ⟨_, hrecords, ?_, fun n record => line_of_getElem?_annotated⟩
    rw [map_content_annotated, SourceText.joinStrings_lines]
  · rw [bare_ofReports, bare_ofReports]

end LineIndex

end ArtifactAtlas
