import ArtifactAtlas.Report.Input
import ArtifactAtlas.Report.Issue
import ArtifactAtlas.SourceMap.Codec
import ArtifactAtlas.SourceText

/-!
# Line indices

Every line of the known sources, with the issues that are about it.
-/

namespace ArtifactAtlas

structure LineRecord where
  /-- Lines are numbered from one. -/
  line : Nat
  content : String
  issues : List Issue

namespace LineRecord

/-- The lines of a text, without issues. -/
def ofText (text : String) : List LineRecord :=
  (SourceText.lines text).zipIdx.map fun (content, i) => ⟨i + 1, content, []⟩

/-- The record with one more issue at the end. -/
def attach (issue : Issue) (record : LineRecord) : LineRecord :=
  { record with issues := record.issues ++ [issue] }

end LineRecord

/-- The lines of each source by its path. -/
abbrev LineIndex := OrderedMap String (List LineRecord)

namespace LineIndex

/-- The lines of the sources that have a text, without issues. -/
def blank (input : AnalysisInput) : LineIndex :=
  input.sources.filterMapValues fun _ source => source.source.map LineRecord.ofText

/-- A file, and the place of a record in its list of lines. -/
structure Spot where
  file : String
  place : Nat
  deriving DecidableEq, Repr

/-- The record that an entry leads to. -/
def spot? (index : LineIndex) (input : AnalysisInput) (sourceList : List String)
    (entry : SourceMap.Entry) : Option Spot := do
  let offset ← entry.start?
  let file ← entry.file? sourceList
  let text ← input.sourceText? file
  let records ← index.get? file
  let place := SourceText.lineAt text offset - 1
  if place < records.length then return ⟨file, place⟩ else none

def attachAt (index : LineIndex) (issue : Issue) (spot : Spot) : LineIndex :=
  match index.get? spot.file with
  | none => index
  | some records =>
      index.insert spot.file (records.modify spot.place (LineRecord.attach issue))

/-- Attaches an issue to the record of the first entry of a map that leads to one. -/
def addLocation (input : AnalysisInput) (reported : List String) (issue : Issue)
    (index : LineIndex) (location : IssueLocation) : LineIndex :=
  match SourceMap.decode location.sourceMap with
  | .error _ => index
  | .ok entries =>
      match entries.findSome? (index.spot? input (location.sourceListOr reported)) with
      | none => index
      | some spot => index.attachAt issue spot

def addIssue (input : AnalysisInput) (reported : List String) (index : LineIndex)
    (issue : Issue) : LineIndex :=
  issue.displayLocations.foldl (addLocation input reported issue) index

def addReport (input : AnalysisInput) (index : LineIndex) (report : IssueReport) : LineIndex :=
  report.displayable.foldl (addIssue input report.sourceList) index

/-- The lines of the sources that have a text, with the issues of reports. -/
def ofReports (reports : List IssueReport) (input : AnalysisInput) : LineIndex :=
  reports.foldl (addReport input) (blank input)

end LineIndex

end ArtifactAtlas
