import ArtifactAtlas.Report.Input
import ArtifactAtlas.Report.Issue
import ArtifactAtlas.SourceMap.Codec
import ArtifactAtlas.SourceMap.Location

/-!
# Decoded issues

The issues of reports with the lines of source text that they are about.
-/

namespace ArtifactAtlas

structure DecodedIssue where
  swcId : String
  swcTitle : String
  description : Description
  severity : Severity
  locations : List SourceMap.Location
  deriving DecidableEq, Repr

/-- The first place in a known source that a location's map leads to. -/
def IssueLocation.resolve? (location : IssueLocation) (reported : List String)
    (input : AnalysisInput) : Option SourceMap.Location :=
  match SourceMap.decode location.sourceMap with
  | .error _ => none
  | .ok entries =>
      SourceMap.firstLocation? input.sourceText? (location.sourceListOr reported) entries

def Issue.decode (issue : Issue) (reported : List String) (input : AnalysisInput) :
    DecodedIssue where
  swcId := issue.swcId.getD ""
  swcTitle := issue.swcTitle.getD ""
  description := issue.description
  severity := issue.severity
  locations := issue.displayLocations.filterMap (·.resolve? reported input)

/-- The issues to show of all reports, in order. -/
def decodeIssues (reports : List IssueReport) (input : AnalysisInput) : List DecodedIssue :=
  reports.flatMap fun report => report.displayable.map (·.decode report.sourceList input)

namespace DecodedIssue

open Json (Format)

def locationJson (location : SourceMap.Location) : Json :=
  .object [("file", .string location.file), ("line", .ofNat location.line),
    ("snippet", .string location.snippet)]

def toJson (issue : DecodedIssue) : Json :=
  .object [
    ("swc_id", .string issue.swcId),
    ("swc_title", .string issue.swcTitle),
    ("description", Description.format.encode issue.description),
    ("severity", Severity.format.encode issue.severity),
    ("locations", .array (issue.locations.map locationJson))]

end DecodedIssue

end ArtifactAtlas
