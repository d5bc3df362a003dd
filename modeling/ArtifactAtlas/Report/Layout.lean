import ArtifactAtlas.Text.Numeral

/-!
# Report layouts
-/

namespace ArtifactAtlas

inductive ReportLayout where
  | text
  /-- The lines that issues are about, by file. -/
  | lines
  | json
  | prettyJson
  deriving DecidableEq, Repr

namespace ReportLayout

def all : List ReportLayout := [text, lines, json, prettyJson]

def name : ReportLayout → String
  | text => "text"
  | lines => "lines"
  | json => "json"
  | prettyJson => "json-pretty"

def ofName? (name : String) : Option ReportLayout :=
  Text.keyword? all ReportLayout.name name

end ReportLayout

end ArtifactAtlas
