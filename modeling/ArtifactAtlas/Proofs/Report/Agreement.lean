import ArtifactAtlas.Proofs.OrderedMap
import ArtifactAtlas.Proofs.SourceText
import ArtifactAtlas.Report.Decode
import ArtifactAtlas.Report.LineIndex

/-!
# Line indices and decoded issues agree

A line index attaches an issue to a record for each of its locations, and
decoding an issue resolves each of its locations to a line.  Both go through the
entries of the same source map, one with the records at hand and the other with
the texts.  What makes them choose the same entry is the invariant `Shows`: the
records are always those of the texts, so the record of a line is never missing.
-/

namespace ArtifactAtlas

/-- A location to show, with its issue and the source list of its report. -/
structure Visit where
  reported : List String
  issue : Issue
  location : IssueLocation

/-- An issue that is shown at a resolved location. -/
structure Placement where
  issue : Issue
  location : SourceMap.Location

namespace Visit

/-- Every location to show, in the order of reports, issues and locations. -/
def all (reports : List IssueReport) : List Visit :=
  reports.flatMap fun report => report.displayable.flatMap fun issue =>
    issue.displayLocations.map fun location => ⟨report.sourceList, issue, location⟩

/-- The location that the decoded issue has for the visited one, if it has any. -/
def resolved? (visit : Visit) (input : AnalysisInput) : Option SourceMap.Location :=
  visit.location.resolve? visit.reported input

def placement? (visit : Visit) (input : AnalysisInput) : Option Placement :=
  (visit.resolved? input).map fun location => ⟨visit.issue, location⟩

end Visit

namespace Placement

/-- The displayable issues at the locations that decoding them has resolved. -/
def decoded (reports : List IssueReport) (input : AnalysisInput) : List Placement :=
  ((reports.flatMap (·.displayable)).zip (decodeIssues reports input)).flatMap
    fun (issue, decoded) => decoded.locations.map fun location => ⟨issue, location⟩

/-- The issues placed on a line of a file, in order. -/
def issuesOn (placed : List Placement) (file : String) (line : Nat) : List Issue :=
  (placed.filter fun p => p.location.file = file ∧ p.location.line = line).map (·.issue)

theorem issuesOn_append (placed : List Placement) (p : Placement) (file : String)
    (line : Nat) :
    issuesOn (placed ++ [p]) file line = issuesOn placed file line ++
      if p.location.file = file ∧ p.location.line = line then [p.issue] else [] := by
  rw [issuesOn, List.filter_append, List.map_append]
  by_cases h : p.location.file = file ∧ p.location.line = line <;> simp [issuesOn, h]

theorem decoded_eq_filterMap (reports : List IssueReport) (input : AnalysisInput) :
    decoded reports input = (Visit.all reports).filterMap (·.placement? input) := by
  induction reports with
  | nil => rfl
  | cons report rest ih =>
      have hzip : report.displayable.zip
          (report.displayable.map (·.decode report.sourceList input)) =
            report.displayable.map fun issue => (issue, issue.decode report.sourceList input) := by
        rw [← List.zip_map', List.map_id']
      have hissue : ∀ issue : Issue,
          ((issue.decode report.sourceList input).locations.map fun location =>
            (⟨issue, location⟩ : Placement)) =
          (issue.displayLocations.map fun location =>
            (⟨report.sourceList, issue, location⟩ : Visit)).filterMap (·.placement? input) := by
        intro issue
        rw [Issue.decode, List.map_filterMap, List.filterMap_map]
        rfl
      simp only [decoded, decodeIssues, Visit.all] at ih ⊢
      rw [List.flatMap_cons, List.flatMap_cons, List.flatMap_cons,
        List.zip_append (by simp), List.flatMap_append, List.filterMap_append, ih, hzip,
        List.flatMap_map, List.filterMap_flatMap]
      simp only [hissue, List.filterMap_flatMap]

end Placement

namespace LineIndex

/-- The step of building an index. -/
def visit (input : AnalysisInput) (index : LineIndex) (v : Visit) : LineIndex :=
  addLocation input v.reported v.issue index v.location

/-- The records of a text with the issues placed on its lines. -/
def annotated (placed : List Placement) (file text : String) : List LineRecord :=
  (SourceText.lines text).zipIdx.map fun (content, i) =>
    ⟨i + 1, content, Placement.issuesOn placed file (i + 1)⟩

theorem getElem?_annotated (placed : List Placement) (file text : String) (n : Nat) :
    (annotated placed file text)[n]? = (SourceText.lines text)[n]?.map fun content =>
      ⟨n + 1, content, Placement.issuesOn placed file (n + 1)⟩ := by
  rw [annotated, List.getElem?_map, List.getElem?_zipIdx]
  cases (SourceText.lines text)[n]? <;> simp

/-- The invariant: every source with a text has its lines, with the issues placed so far. -/
def Shows (input : AnalysisInput) (placed : List Placement) (index : LineIndex) : Prop :=
  ∀ file, index.get? file = (input.sourceText? file).map (annotated placed file)

theorem shows_blank (input : AnalysisInput) : Shows input [] (blank input) := by
  intro file
  rw [blank, OrderedMap.get?_filterMapValues, AnalysisInput.sourceText?]
  cases input.sources.get? file with
  | none => rfl
  | some source =>
      cases hsource : source.source with
      | none => simp [hsource]
      | some text =>
          simp only [Option.bind_some, hsource, Option.map_some]
          rfl

/-! ## One step -/

variable {input : AnalysisInput} {placed : List Placement} {index : LineIndex}

theorem length_annotated (placed : List Placement) (file text : String) :
    (annotated placed file text).length = (SourceText.lines text).length := by
  simp [annotated]

/-- The record of the line that a position is on is there. -/
theorem lineAt_sub_one_lt (placed : List Placement) (file text : String) (offset : Nat) :
    SourceText.lineAt text offset - 1 < (annotated placed file text).length := by
  have hle := SourceText.lineAt_le_length_lines text offset
  have hpos := SourceText.lineAt_pos text offset
  rw [length_annotated]
  omega

/-- The place of a resolved location in an index. -/
def spotOf (location : SourceMap.Location) : Spot :=
  ⟨location.file, location.line - 1⟩

theorem Shows.spot?_eq (h : Shows input placed index) (sourceList : List String)
    (entry : SourceMap.Entry) :
    index.spot? input sourceList entry =
      (entry.location? input.sourceText? sourceList).map spotOf := by
  simp only [spot?, SourceMap.Entry.location?]
  cases entry.start? with
  | none => rfl
  | some offset =>
      cases entry.file? sourceList with
      | none => rfl
      | some file =>
          cases htext : input.sourceText? file with
          | none => simp [htext]
          | some text =>
              have hrecords : index.get? file = some (annotated placed file text) := by
                rw [h file, htext, Option.map_some]
              have hplace := lineAt_sub_one_lt placed file text offset
              simp [htext, hrecords, hplace, spotOf]

theorem Shows.visit_eq (h : Shows input placed index) (v : Visit) :
    visit input index v =
      match v.resolved? input with
      | none => index
      | some location => index.attachAt v.issue (spotOf location) := by
  rw [visit, addLocation, Visit.resolved?, IssueLocation.resolve?]
  cases SourceMap.decode v.location.sourceMap with
  | error malformed => rfl
  | ok entries =>
      have hspot : index.spot? input (v.location.sourceListOr v.reported) =
          Option.map spotOf ∘ fun entry => entry.location? input.sourceText?
            (v.location.sourceListOr v.reported) :=
        funext (h.spot?_eq _)
      simp only [hspot, ← List.map_findSome?, SourceMap.firstLocation?]
      cases entries.findSome? fun entry => entry.location? input.sourceText?
          (v.location.sourceListOr v.reported) <;> rfl

/-- A resolved location lies on a line of a source that has a text. -/
theorem exists_content_of_resolved {v : Visit} {location : SourceMap.Location}
    (h : v.resolved? input = some location) :
    ∃ text content, input.sourceText? location.file = some text ∧
      0 < location.line ∧
      (SourceText.lines text)[location.line - 1]? = some content ∧
      location.snippet = SourceMap.dropCarriageReturns content := by
  rw [Visit.resolved?, IssueLocation.resolve?] at h
  cases hdecode : SourceMap.decode v.location.sourceMap with
  | error malformed => simp [hdecode] at h
  | ok entries =>
      rw [hdecode] at h
      obtain ⟨entry, -, hentry⟩ := List.exists_of_findSome?_eq_some h
      simp only [SourceMap.Entry.location?, Option.bind_eq_bind, Option.bind_eq_some_iff,
        Option.pure_def, Option.some.injEq] at hentry
      obtain ⟨offset, -, file, -, text, htext, rfl⟩ := hentry
      obtain ⟨content, hline, hcontent⟩ := SourceText.exists_line?_lineAt text offset
      exact ⟨text, content, htext, SourceText.lineAt_pos text offset, hcontent,
        by simp [hline]⟩

theorem get?_attachAt (index : LineIndex) (issue : Issue) (spot : Spot) (file : String) :
    (index.attachAt issue spot).get? file = (index.get? file).map fun records =>
      if spot.file = file then records.modify spot.place (LineRecord.attach issue)
      else records := by
  rw [attachAt]
  cases hrecords : index.get? spot.file with
  | none =>
      by_cases hfile : spot.file = file
      · rw [← hfile, hrecords, Option.map_none]
      · simp [hfile]
  | some records =>
      rw [OrderedMap.get?_insert]
      by_cases hfile : spot.file = file
      · simp [← hfile, hrecords]
      · simp [hfile]

theorem annotated_append (placed : List Placement) (p : Placement)
    (hline : 0 < p.location.line) (file text : String) :
    annotated (placed ++ [p]) file text =
      if p.location.file = file then
        (annotated placed file text).modify (p.location.line - 1) (LineRecord.attach p.issue)
      else annotated placed file text := by
  apply List.ext_getElem?
  intro n
  by_cases hfile : p.location.file = file
  · rw [if_pos hfile, List.getElem?_modify, getElem?_annotated, getElem?_annotated,
      Placement.issuesOn_append]
    cases (SourceText.lines text)[n]? with
    | none => simp
    | some content =>
        by_cases hn : p.location.line = n + 1
        · simp [hfile, hn, LineRecord.attach]
        · have hne : p.location.line - 1 ≠ n := by omega
          simp [hn, hne]
  · rw [if_neg hfile, getElem?_annotated, getElem?_annotated, Placement.issuesOn_append]
    simp [hfile]

/-- What a step keeps: the visited location is placed if it resolves, and nothing else changes. -/
theorem Shows.visit (h : Shows input placed index) (v : Visit) :
    Shows input (placed ++ (v.placement? input).toList) (visit input index v) := by
  intro file
  rw [h.visit_eq, Visit.placement?]
  cases hresolved : v.resolved? input with
  | none => simpa using h file
  | some location =>
      obtain ⟨_, _, _, hline, _, _⟩ := exists_content_of_resolved hresolved
      rw [get?_attachAt, h file, Option.map_map]
      congr 1
      funext text
      exact (annotated_append placed ⟨v.issue, location⟩ hline file text).symm

/-! ## The whole run -/

theorem Shows.foldl_visit (h : Shows input placed index) (visits : List Visit) :
    Shows input (placed ++ visits.filterMap (·.placement? input))
      (visits.foldl (LineIndex.visit input) index) := by
  induction visits generalizing placed index with
  | nil => simpa using h
  | cons v rest ih =>
      have hrest := ih (h.visit v)
      rw [List.foldl_cons]
      cases hplacement : v.placement? input with
      | none => simpa [hplacement] using hrest
      | some p => simpa [hplacement] using hrest

/-- The index after visits to some locations. -/
def ofVisits (input : AnalysisInput) (visits : List Visit) : LineIndex :=
  visits.foldl (visit input) (blank input)

theorem shows_ofVisits (input : AnalysisInput) (visits : List Visit) :
    Shows input (visits.filterMap (·.placement? input)) (ofVisits input visits) :=
  (shows_blank input).foldl_visit visits

theorem ofReports_eq_ofVisits (reports : List IssueReport) (input : AnalysisInput) :
    ofReports reports input = ofVisits input (Visit.all reports) := by
  simp only [ofReports, ofVisits, Visit.all, List.foldl_flatMap, List.foldl_map]
  rfl

theorem shows_ofReports (reports : List IssueReport) (input : AnalysisInput) :
    Shows input (Placement.decoded reports input) (ofReports reports input) := by
  rw [ofReports_eq_ofVisits, Placement.decoded_eq_filterMap]
  exact shows_ofVisits input (Visit.all reports)

theorem exists_record_of_placed {reports : List IssueReport} {p : Placement}
    (h : p ∈ Placement.decoded reports input) :
    ∃ records record, (ofReports reports input).get? p.location.file = some records ∧
      records[p.location.line - 1]? = some record ∧
      record.line = p.location.line ∧
      p.location.snippet = SourceMap.dropCarriageReturns record.content := by
  have hshows := shows_ofReports reports input p.location.file
  rw [Placement.decoded_eq_filterMap, List.mem_filterMap] at h
  obtain ⟨v, -, hplacement⟩ := h
  obtain ⟨location, hresolved, rfl⟩ := Option.map_eq_some_iff.mp hplacement
  obtain ⟨text, content, htext, hline, hcontent, hsnippet⟩ :=
    exists_content_of_resolved hresolved
  rw [htext, Option.map_some] at hshows
  have hrecord := getElem?_annotated (Placement.decoded reports input) location.file text
    (location.line - 1)
  rw [hcontent, Option.map_some] at hrecord
  exact ⟨_, _, hshows, hrecord, Nat.sub_add_cancel hline, hsnippet⟩

/--
Building the line index and decoding the issues agree: the index is that of
attaching each issue, in order, to the record of every location that decoding
resolves for it, and no location that decoding drops leaves a trace.  The record
to attach to is there at every stage.
-/
theorem ofReports_agrees_with_decodeIssues (reports : List IssueReport)
    (input : AnalysisInput) :
    ofReports reports input = ofVisits input (Visit.all reports) ∧
    Placement.decoded reports input =
      (Visit.all reports).filterMap (·.placement? input) ∧
    (∀ visits v, ofVisits input (visits ++ [v]) =
      match v.resolved? input with
      | none => ofVisits input visits
      | some location => (ofVisits input visits).attachAt v.issue (spotOf location)) ∧
    (∀ visits file text, input.sourceText? file = some text →
      ∃ records, (ofVisits input visits).get? file = some records ∧
        ∀ offset, SourceText.lineAt text offset - 1 < records.length) ∧
    (∀ file, (ofReports reports input).get? file =
      (input.sourceText? file).map (annotated (Placement.decoded reports input) file)) ∧
    (∀ p ∈ Placement.decoded reports input,
      ∃ records record, (ofReports reports input).get? p.location.file = some records ∧
        records[p.location.line - 1]? = some record ∧
        record.line = p.location.line ∧
        p.location.snippet = SourceMap.dropCarriageReturns record.content) := by
  refine ⟨ofReports_eq_ofVisits reports input,
    Placement.decoded_eq_filterMap reports input, ?_, ?_,
    shows_ofReports reports input, fun p hp => exists_record_of_placed hp⟩
  · intro visits v
    rw [← (shows_ofVisits input visits).visit_eq v, ofVisits, List.foldl_append]
    rfl
  · intro visits file text htext
    have hrecords := shows_ofVisits input visits file
    rw [htext, Option.map_some] at hrecords
    exact ⟨_, hrecords, fun offset => lineAt_sub_one_lt _ file text offset⟩

end LineIndex

end ArtifactAtlas
