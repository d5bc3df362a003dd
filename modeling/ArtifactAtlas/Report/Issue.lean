import ArtifactAtlas.Json.Record
import ArtifactAtlas.Report.Severity

/-!
# Issue reports

What an analysis found, and where.  A location is a source map over a list of
source paths; a location without a list of its own uses that of its report.
-/

namespace ArtifactAtlas

open Json (FieldFormat Format RecordFormat)

structure Description where
  short : String
  long : String
  deriving DecidableEq, Repr, Inhabited

def Description.format : Format Description :=
  RecordFormat.complete <|
    (RecordFormat.start Description.mk)
    |>.field ((FieldFormat.defaulted "short" "" .text).orNamed "head") (·.short)
    |>.field ((FieldFormat.defaulted "long" "" .text).orNamed "tail") (·.long)

def Description.blank : Description := ⟨"", ""⟩

structure IssueLocation where
  sourceFormat : Option String
  sourceType : Option String
  sourceList : Option (List String)
  sourceMap : String
  deriving DecidableEq, Repr

namespace IssueLocation

def format : Format IssueLocation :=
  RecordFormat.complete <|
    (RecordFormat.start IssueLocation.mk)
    |>.field ((FieldFormat.omittable "source_format" .text).orNamed "sourceFormat")
      (·.sourceFormat)
    |>.field ((FieldFormat.omittable "source_type" .text).orNamed "sourceType") (·.sourceType)
    |>.field ((FieldFormat.omittable "source_list" (.list .text)).orNamed "sourceList")
      (·.sourceList)
    |>.field ((FieldFormat.defaulted "source_map" "" .text).orNamed "sourceMap") (·.sourceMap)

/-- Whether the map points into source text. -/
def isText (location : IssueLocation) : Bool :=
  location.sourceFormat = some "text"

/-- The location's own source list, or that of its report when it has none or an empty one. -/
def sourceListOr (location : IssueLocation) (reported : List String) : List String :=
  match location.sourceList with
  | none | some [] => reported
  | some list => list

end IssueLocation

structure Issue where
  swcId : Option String
  swcTitle : Option String
  description : Description
  severity : Severity
  locations : List IssueLocation
  /-- Whatever else the report says about the issue. -/
  extra : Json

namespace Issue

def format : Format Issue :=
  RecordFormat.complete <|
    (RecordFormat.start Issue.mk)
    |>.field ((FieldFormat.defaulted "swc_id" none (.optional .text)).orNamed "swcID") (·.swcId)
    |>.field ((FieldFormat.defaulted "swc_title" none (.optional .text)).orNamed "swcTitle")
      (·.swcTitle)
    |>.field (.defaulted "description" .blank Description.format) (·.description)
    |>.field (.defaulted "severity" .unknown Severity.format) (·.severity)
    |>.field (.defaulted "locations" [] (.list IssueLocation.format)) (·.locations)
    |>.field (.opaqueValue "extra") (·.extra)

/-- Whether a text is there and says something. -/
def isGiven (text : Option String) : Bool :=
  text.any (· ≠ "")

/-- An issue without an identifier, a title or a location only holds a place. -/
def isDisplayable (issue : Issue) : Bool :=
  isGiven issue.swcId && isGiven issue.swcTitle && !issue.locations.isEmpty

/-- The only location, or of several those in source text. -/
def displayLocations (issue : Issue) : List IssueLocation :=
  if issue.locations.length > 1 then issue.locations.filter (·.isText) else issue.locations

end Issue

structure IssueReport where
  issues : List Issue
  sourceType : Option String
  sourceFormat : Option String
  sourceList : List String
  /-- Whatever else there is to say about the analysis. -/
  details : Json

namespace IssueReport

def format : Format IssueReport :=
  RecordFormat.complete <|
    (RecordFormat.start IssueReport.mk)
    |>.field (.defaulted "issues" [] (.list Issue.format)) (·.issues)
    |>.field ((FieldFormat.omittable "source_type" .text).orNamed "sourceType") (·.sourceType)
    |>.field ((FieldFormat.omittable "source_format" .text).orNamed "sourceFormat")
      (·.sourceFormat)
    |>.field ((FieldFormat.defaulted "source_list" [] (.list .text)).orNamed "sourceList")
      (·.sourceList)
    |>.field (.opaqueValue "meta") (·.details)

/-- The issues to show, in order. -/
def displayable (report : IssueReport) : List Issue :=
  report.issues.filter (·.isDisplayable)

/-- The reports of a document, which is one report or a list of them. -/
def ofDocument? : Json → Option (List IssueReport)
  | .array items => items.mapM format.decode
  | document => (format.decode document).map ([·])

end IssueReport

end ArtifactAtlas
