import ArtifactAtlas.Proofs.Report.Agreement
import ArtifactAtlas.Report.Filter

/-!
# Filtered reports

A filter judges an issue by its severity and its identifier, which decoding keeps,
and an issue is decoded and attached whatever other issues there are.  So reports
may be filtered before they are read against an input or after.
-/

namespace ArtifactAtlas

namespace ReportFilter

/-- Whether a filter keeps issues of that severity with that identifier. -/
def accepts (filter : ReportFilter) (severity : Severity) (id : Option String) : Bool :=
  filter.leastSeverity.all (· ≤ severity) &&
    !(id.map SwcId.canonical).any filter.blacklist.contains &&
    (filter.whitelist.isEmpty || (id.map SwcId.canonical).any filter.whitelist.contains)

variable (filter : ReportFilter)

theorem keeps_eq_accepts (issue : Issue) :
    filter.keeps issue = filter.accepts issue.severity issue.swcId := rfl

theorem displayable_keepIn (report : IssueReport) :
    (filter.keepIn report).displayable = report.displayable.filter filter.keeps := by
  rw [IssueReport.displayable, IssueReport.displayable, keepIn, List.filter_comm]

end ReportFilter

/-! ## Decoded issues -/

theorem Issue.swcId_eq_some_of_isDisplayable {issue : Issue} (h : issue.isDisplayable = true) :
    issue.swcId = some (issue.swcId.getD "") := by
  cases hid : issue.swcId with
  | none => simp [isDisplayable, isGiven, hid] at h
  | some id => rfl

theorem ReportFilter.accepts_decode (filter : ReportFilter) {issue : Issue}
    (h : issue.isDisplayable = true) (reported : List String) (input : AnalysisInput) :
    filter.accepts (issue.decode reported input).severity
        (some (issue.decode reported input).swcId) = filter.keeps issue := by
  rw [keeps_eq_accepts, Issue.swcId_eq_some_of_isDisplayable h]
  rfl

theorem decodeIssues_keepIn (filter : ReportFilter) (reports : List IssueReport)
    (input : AnalysisInput) :
    decodeIssues (reports.map filter.keepIn) input =
      (decodeIssues reports input).filter fun decoded =>
        filter.accepts decoded.severity (some decoded.swcId) := by
  rw [decodeIssues, decodeIssues, List.flatMap_map, List.filter_flatMap]
  congr 1
  funext report
  rw [filter.displayable_keepIn, List.filter_map]
  congr 1
  refine List.filter_congr fun issue hissue => ?_
  exact (filter.accepts_decode (List.mem_filter.mp hissue).2 report.sourceList input).symm

/-! ## Line indices -/

/-- Items may be dropped before they are unfolded if what they unfold to is judged as they are. -/
theorem filter_flatMap_of_forall {α β : Type} {keep : α → Bool} {view : β → Bool}
    {f : α → List β} (h : ∀ item, ∀ made ∈ f item, view made = keep item) (items : List α) :
    (items.flatMap f).filter view = (items.filter keep).flatMap f := by
  induction items with
  | nil => rfl
  | cons item rest ih =>
      rw [List.flatMap_cons, List.filter_append, ih, List.filter_cons]
      split
      case isTrue hkeep =>
        have hall : ∀ made ∈ f item, view made = true :=
          fun made hmade => (h item made hmade).trans hkeep
        rw [List.filter_eq_self.mpr hall, List.flatMap_cons]
      case isFalse hkeep =>
        have hnone : ∀ made ∈ f item, ¬ view made = true :=
          fun made hmade => by rwa [h item made hmade]
        rw [List.filter_eq_nil_iff.mpr hnone, List.nil_append]

theorem Visit.all_keepIn (filter : ReportFilter) (reports : List IssueReport) :
    all (reports.map filter.keepIn) =
      (all reports).filter fun visit => filter.keeps visit.issue := by
  rw [all, all, List.flatMap_map, List.filter_flatMap]
  congr 1
  funext report
  rw [filter.displayable_keepIn]
  refine (filter_flatMap_of_forall ?_ report.displayable).symm
  intro issue visit hvisit
  obtain ⟨location, -, rfl⟩ := List.mem_map.mp hvisit
  rfl

namespace Placement

theorem decoded_keepIn (filter : ReportFilter) (reports : List IssueReport)
    (input : AnalysisInput) :
    decoded (reports.map filter.keepIn) input =
      (decoded reports input).filter fun placed => filter.keeps placed.issue := by
  rw [decoded_eq_filterMap, decoded_eq_filterMap, Visit.all_keepIn, List.filterMap_filter,
    List.filter_filterMap]
  congr 1
  funext visit
  rw [Visit.placement?]
  cases visit.resolved? input with
  | none => simp
  | some location =>
      by_cases hkeep : filter.keeps visit.issue = true <;> simp [Option.filter, hkeep]

theorem issuesOn_filter (keep : Issue → Bool) (placed : List Placement) (file : String)
    (line : Nat) :
    issuesOn (placed.filter fun p => keep p.issue) file line =
      (issuesOn placed file line).filter keep := by
  rw [issuesOn, issuesOn, List.filter_map, List.filter_comm]
  rfl

end Placement

/-- The record with those of its issues that a filter keeps. -/
def LineRecord.keepIn (filter : ReportFilter) (record : LineRecord) : LineRecord :=
  { record with issues := record.issues.filter filter.keeps }

namespace LineIndex

theorem annotated_filter (filter : ReportFilter) (placed : List Placement)
    (file text : String) :
    annotated (placed.filter fun p => filter.keeps p.issue) file text =
      (annotated placed file text).map (LineRecord.keepIn filter) := by
  rw [annotated, annotated, List.map_map]
  congr 1
  funext line
  exact congrArg (LineRecord.mk (line.2 + 1) line.1)
    (Placement.issuesOn_filter filter.keeps placed file (line.2 + 1))

theorem ofReports_keepIn (filter : ReportFilter) (reports : List IssueReport)
    (input : AnalysisInput) :
    ofReports (reports.map filter.keepIn) input =
      (ofReports reports input).mapValues fun _ records =>
        records.map (LineRecord.keepIn filter) := by
  apply OrderedMap.eq_of_get?_eq
  intro file
  rw [OrderedMap.get?_mapValues, shows_ofReports (reports.map filter.keepIn) input file,
    shows_ofReports reports input file, Placement.decoded_keepIn, Option.map_map]
  congr 1
  funext text
  exact annotated_filter filter _ file text

end LineIndex

/--
Filtering reports and then reading them against an input gives what reading them
and then filtering gives.  Of the decoded issues just those are gone that the
filter rejects by severity and identifier; in the line index every file has the
lines it had, each with the issues that the filter keeps.
-/
theorem ReportFilter.filtering_commutes_with_reading (filter : ReportFilter)
    (reports : List IssueReport) (input : AnalysisInput) :
    (∀ issue, filter.keeps issue = filter.accepts issue.severity issue.swcId) ∧
    decodeIssues (filter.apply reports).2 input =
      (decodeIssues reports input).filter (fun decoded =>
        filter.accepts decoded.severity (some decoded.swcId)) ∧
    LineIndex.ofReports (filter.apply reports).2 input =
      (LineIndex.ofReports reports input).mapValues (fun _ records =>
        records.map (LineRecord.keepIn filter)) :=
  ⟨filter.keeps_eq_accepts, decodeIssues_keepIn filter reports input,
    LineIndex.ofReports_keepIn filter reports input⟩

end ArtifactAtlas
