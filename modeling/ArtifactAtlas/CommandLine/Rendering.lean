import ArtifactAtlas.Json.Printer
import ArtifactAtlas.Report.Decode
import ArtifactAtlas.Report.LineIndex
import ArtifactAtlas.Text.Style

/-!
# Rendering

Reports and source maps as texts for people, and values as JSON.
-/

namespace ArtifactAtlas.CommandLine

def json (isPretty : Bool) (value : Json) : String :=
  if isPretty then value.pretty else value.compact

def trimEnd (text : String) : String :=
  String.ofList (Text.trimEnd text.toList)

/-- The number in a column of five characters. -/
def column (n : Nat) : String :=
  let digits := Numeral.ofNat n
  String.ofList (List.replicate (5 - digits.length) ' ' ++ digits)

/-! ## Reports -/

def severityStyle : Severity → Text.Style
  | .high => .boldRed
  | .medium => .yellow
  | .low => .cyan
  | .none | .unknown => .dim

def severity (styled : Bool) (severity : Severity) : String :=
  Text.paint styled (severityStyle severity) severity.name

def noIssues : String := "No issues found."

def locationLines (styled : Bool) (location : SourceMap.Location) : List String :=
  ["--------------------",
    location.file ++ ":" ++ Numeral.text location.line,
    Text.paint styled .dim (String.ofList (Text.trim location.snippet.toList))]

def issueLines (styled : Bool) (issue : DecodedIssue) : List String :=
  ["==== " ++ Text.paint styled .bold issue.swcTitle ++ " ====",
    "SWC ID: " ++ issue.swcId,
    "Severity: " ++ severity styled issue.severity,
    issue.description.short] ++
  (if issue.description.long = "" then [] else [issue.description.long]) ++
  issue.locations.flatMap (locationLines styled) ++ [""]

def unlines (lines : List String) : String :=
  String.join (lines.map (· ++ "\n"))

def issueBlocks (styled : Bool) (issues : List DecodedIssue) : String :=
  if issues.isEmpty then noIssues
  else trimEnd (unlines (issues.flatMap (issueLines styled)))

def recordLines (styled : Bool) (record : LineRecord) : List String :=
  (column record.line ++ " | " ++ record.content) ::
    record.issues.map fun issue =>
      "      > [" ++ severity styled issue.severity ++ "] " ++ issue.swcId.getD "" ++ " " ++
        issue.swcTitle.getD ""

/-- The lines of a file that issues are about. -/
def fileLines (styled : Bool) (file : String) (records : List LineRecord) : List String :=
  match records.filter fun record => !record.issues.isEmpty with
  | [] => []
  | records =>
      Text.paint styled .boldUnderlined file :: records.flatMap (recordLines styled) ++ [""]

/-- The lines that issues are about, by file. -/
def annotatedLines (styled : Bool) (index : LineIndex) : String :=
  match index.toList.flatMap fun (file, records) => fileLines styled file records with
  | [] => noIssues
  | lines => trimEnd (unlines lines)

/-! ## Source maps -/

def entryJson (entry : SourceMap.Entry) : Json :=
  .object [
    ("offset", .ofInt entry.offset.toInt), ("length", .ofInt entry.length.toInt),
    ("file_index", .ofInt entry.fileIndex.toInt),
    ("jump", .string (String.ofList [entry.jump.letter])),
    ("modifier_depth", .ofNat entry.modifierDepth.toNat)]

/-- An entry with its number and its file, if that has a name. -/
def entryLine (sourceList : List String) (entry : SourceMap.Entry) (number : Nat) : String :=
  let file := ((entry.file? sourceList).filter (· ≠ "")).map ("  " ++ ·)
  column number ++ "  " ++ entry.text ++ file.getD ""

def entryList (sourceList : List String) (entries : List SourceMap.Entry) : String :=
  trimEnd (unlines (entries.zipIdx.map fun (entry, number) => entryLine sourceList entry number))

end ArtifactAtlas.CommandLine
