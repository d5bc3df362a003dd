import ArtifactAtlas.Proofs.Json.RoundTrip
import ArtifactAtlas.Report.Issue

/-!
# Reports read back

A report that is written can be read again, alone or in a list, with the names of fields
as they are written or with their other ones.
-/

namespace ArtifactAtlas

open Json (FieldFormat Format RecordFormat)
open Json.FieldFormat (keeps_defaulted keeps_omittable keeps_opaqueValue)
open Json.Format (keeps_list keeps_optional keeps_text keeps_texts)
open Json.RecordFormat (keeps_start)

/-! ## The parts of a report -/

theorem Severity.keeps_format (severity : Severity) : format.Keeps severity severity := by
  rintro _ rfl
  cases severity <;> decide

theorem Description.keeps_format (description : Description) :
    format.Keeps description description := by
  refine RecordFormat.Keeps.complete (.field (.field (keeps_start Description.mk _) ?_) ?_) ?_
  · exact .orNamed (keeps_defaulted _ _ (keeps_text _)) _
  · exact .orNamed (keeps_defaulted _ _ (keeps_text _)) _
  · decide

theorem IssueLocation.keeps_format (location : IssueLocation) :
    format.Keeps location location := by
  refine RecordFormat.Keeps.complete (.field (.field (.field (.field
    (keeps_start IssueLocation.mk _) ?_) ?_) ?_) ?_) ?_
  · exact .orNamed (keeps_omittable _ keeps_text nofun _) _
  · exact .orNamed (keeps_omittable _ keeps_text nofun _) _
  · exact .orNamed (keeps_omittable _ keeps_texts nofun _) _
  · exact .orNamed (keeps_defaulted _ _ (keeps_text _)) _
  · decide

theorem Issue.keeps_format (issue : Issue) : format.Keeps issue issue := by
  refine RecordFormat.Keeps.complete (.field (.field (.field (.field (.field (.field
    (keeps_start Issue.mk _) ?_) ?_) ?_) ?_) ?_) ?_) ?_
  · exact .orNamed (keeps_defaulted _ _ (keeps_optional keeps_text nofun _)) _
  · exact .orNamed (keeps_defaulted _ _ (keeps_optional keeps_text nofun _)) _
  · exact keeps_defaulted _ _ (Description.keeps_format _)
  · exact keeps_defaulted _ _ (Severity.keeps_format _)
  · exact keeps_defaulted _ _ (keeps_list fun location _ => location.keeps_format)
  · exact keeps_opaqueValue _ _
  · decide

namespace IssueReport

theorem keeps_format (report : IssueReport) : format.Keeps report report := by
  refine RecordFormat.Keeps.complete (.field (.field (.field (.field (.field
    (keeps_start IssueReport.mk _) ?_) ?_) ?_) ?_) ?_) ?_
  · exact keeps_defaulted _ _ (keeps_list fun issue _ => issue.keeps_format)
  · exact .orNamed (keeps_omittable _ keeps_text nofun _) _
  · exact .orNamed (keeps_omittable _ keeps_text nofun _) _
  · exact .orNamed (keeps_defaulted _ _ (keeps_texts _)) _
  · exact keeps_opaqueValue _ _
  · decide

theorem ofDocument?_of_respells {report : IssueReport} {document : Json}
    (h : format.shape.Respells (format.encode report) document) :
    ofDocument? document = some [report] := by
  have hdecode := report.keeps_format document h
  cases document
  case array => cases h
  all_goals
    rw [ofDocument?, hdecode]
    · rfl
    · nofun

theorem ofDocument?_of_respells_list {reports : List IssueReport} {document : Json}
    (h : (Format.list format).shape.Respells ((Format.list format).encode reports) document) :
    ofDocument? document = some reports := by
  have hdecode := keeps_list (fun report _ => keeps_format report) document h
  cases document
  case array items => exact hdecode
  all_goals cases h

/--
Reports are read back as they were written, whatever is in them: a list of reports and a
single one, and both also from documents that give fields under their other names.
-/
theorem reports_are_read_back_under_any_names (reports : List IssueReport)
    (report : IssueReport) :
    ofDocument? ((Format.list format).encode reports) = some reports ∧
    ofDocument? (format.encode report) = some [report] ∧
    (∀ document,
      (Format.list format).shape.Respells ((Format.list format).encode reports) document →
      ofDocument? document = some reports) ∧
    ∀ document, format.shape.Respells (format.encode report) document →
      ofDocument? document = some [report] :=
  ⟨ofDocument?_of_respells_list (Json.Shape.respells_refl _ _),
    ofDocument?_of_respells (Json.Shape.respells_refl _ _),
    fun _ => ofDocument?_of_respells_list, fun _ => ofDocument?_of_respells⟩

/-- A report with a value for each of its fields. -/
def everyField : IssueReport where
  issues := [{
    swcId := some "SWC-110"
    swcTitle := some "Assert Violation"
    description := ⟨"short", "long"⟩
    severity := .low
    locations := [⟨some "text", some "solidity-file", some ["a.sol"], "310:22:0"⟩]
    extra := .object [("swc_id", .null)] }]
  sourceType := some "solidity-file"
  sourceFormat := some "text"
  sourceList := ["a.sol"]
  details := .object [("head", .bool true)]

/-- The report under the names that a service gives its fields. -/
def everyFieldRenamed : Json :=
  .object [
    ("issues", .array [.object [
      ("swcID", .string "SWC-110"),
      ("swcTitle", .string "Assert Violation"),
      ("description", .object [("head", .string "short"), ("tail", .string "long")]),
      ("severity", .string "low"),
      ("locations", .array [.object [
        ("sourceFormat", .string "text"),
        ("sourceType", .string "solidity-file"),
        ("sourceList", .array [.string "a.sol"]),
        ("sourceMap", .string "310:22:0")]]),
      ("extra", .object [("swc_id", .null)])]]),
    ("sourceType", .string "solidity-file"),
    ("sourceFormat", .string "text"),
    ("sourceList", .array [.string "a.sol"]),
    ("meta", .object [("head", .bool true)])]

theorem everyFieldRenamed_is_read_back :
    format.shape.Respells (format.encode everyField) everyFieldRenamed ∧
    ofDocument? everyFieldRenamed = some [everyField] ∧
    ofDocument? (.array [everyFieldRenamed, format.encode everyField]) =
      some [everyField, everyField] := by
  have hrenamed : format.shape.Respells (format.encode everyField) everyFieldRenamed := by
    simp [everyField, everyFieldRenamed, format, Issue.format, Description.format,
      IssueLocation.format, Severity.format, Severity.name, RecordFormat.complete,
      RecordFormat.field, RecordFormat.start, FieldFormat.defaulted, FieldFormat.omittable,
      FieldFormat.orNamed, FieldFormat.opaqueValue, Format.list, Format.text, Format.optional,
      Json.Shape.Respells, Json.FieldsRespell, Json.FieldName.accepts, Json.isNull]
  obtain ⟨-, -, hlist, hsingle⟩ :=
    reports_are_read_back_under_any_names [everyField, everyField] everyField
  exact ⟨hrenamed, hsingle _ hrenamed,
    hlist _ (.cons hrenamed (.cons (Json.Shape.respells_refl _ _) .nil))⟩

end IssueReport

end ArtifactAtlas
