import ArtifactAtlas.CommandLine.Complaint
import ArtifactAtlas.CommandLine.Invocation
import ArtifactAtlas.CommandLine.Rendering
import ArtifactAtlas.Payload.Documents
import ArtifactAtlas.Payload.Sanitize
import ArtifactAtlas.Project.Load
import ArtifactAtlas.Report.Filter
import ArtifactAtlas.SourceMap.Rehome

/-!
# Running commands

What a command prints and writes, given the files there are.
-/

namespace ArtifactAtlas.CommandLine

structure Outcome where
  printed : String := ""
  /-- What is told besides, one line after the other. -/
  notices : List String := []
  complaint : Option Complaint := none
  tree : FileTree

/-- Writes a document and a line feed to a file, or prints it. -/
def emit (tree : FileTree) (document : String) (output : Option Path) :
    Except Complaint (String × FileTree) :=
  let content := document ++ "\n"
  match output with
  | none => .ok (content, tree)
  | some path =>
      match tree.writeText path content with
      | .ok tree => .ok ("", tree)
      | .error fault =>
          .error { message := s!"failed to write {path.text}"
                   causes := [Complaint.tagged fault.tag] }

/-- The outcome of a run that ends in a document or a complaint. -/
def Outcome.of (tree : FileTree) (notices : List String) (output : Option Path)
    (document : Except Complaint String) : Outcome :=
  match document.bind fun document => emit tree document output with
  | .ok (printed, tree) => { printed, notices, tree }
  | .error complaint => { notices, complaint, tree }

/-! ## Payloads -/

/-- The project of a command; its arguments go before the settings of its directory. -/
def PayloadCommand.project (command : PayloadCommand) (tree : FileTree) :
    Except Complaint Project := do
  let directory ←
    match tree.canonical command.directory with
    | .ok directory => pure directory
    | .error fault =>
        throw { message := s!"project directory {command.directory.text} does not exist"
                causes := [Complaint.tagged fault.tag] }
  let settings ← (Settings.loadFrom tree directory).mapError Complaint.ofSettings
  let project := settings.project
  let targets := if command.targets.isEmpty then project.targets else command.targets
  return {
    buildTool :=
      (command.buildTool.or project.buildTool).getD (BuildTool.detect tree directory)
    targets
    options := {
      directory
      output := command.buildOutput.or project.output
      included := .ofTargets tree targets directory
      solcVersion := command.solcVersion.or project.solcVersion }
    sanitizes := project.sanitize && !command.keepsPaths }

/-- What is told about the contracts that are left out. -/
def payloadNotices (styled : Bool) (payload : Payload) : List String :=
  (payload.skipped.map fun name => Text.paint styled .yellow
    s!"Skipping submission for contract {name} because no bytecode was produced.") ++
  payload.failed.map fun name => Text.paint styled .yellow
    s!"Skipping contract {name} because its sources could not be assembled."

def workingPath (tree : FileTree) : Path :=
  .ofComponents (.root :: tree.workingDirectory.map .name)

def payloadDocument (shape : PayloadShape) (payload : Payload) : Json :=
  match shape with
  | .requests => (Json.Format.list AnalysisRequest.format).encode payload.requests
  | .job => Job.format.encode payload.job
  | .raw => payload.toJson

def PayloadCommand.run (styled : Bool) (tree : FileTree) (command : PayloadCommand) : Outcome :=
  let loaded : Except Complaint (Project × Artifacts) := do
    let project ← command.project tree
    return (project, ← (project.load tree).mapError Complaint.ofFailure)
  match loaded with
  | .error complaint => { complaint, tree }
  | .ok (project, artifacts) =>
      let payload := Payload.assemble artifacts
      let document : Except Complaint String :=
        if payload.contracts.isEmpty then
          let directory := project.options.directory.text
          .error { message := s!"no contracts with bytecode found in {directory}" }
        else
          let sent :=
            if project.sanitizes then
              (payload.sanitize (.ofText (workingPath tree).text)).2
            else payload
          .ok (json command.isPretty (payloadDocument command.shape sent))
      .of tree (payloadNotices styled payload) command.output document

/-! ## Reports -/

def readJson (tree : FileTree) (path : Path) : Except Complaint Json :=
  match tree.readText path with
  | .error fault =>
      .error { message := s!"failed to read {path.text}"
               causes := [Complaint.tagged fault.tag] }
  | .ok text =>
      match Json.parse text with
      | .ok value => .ok value
      | .error fault =>
          .error { message := s!"invalid JSON in {path.text}"
                   causes := [Complaint.tagged fault.tag] }

/-- What a file that should be `what` holds. -/
def readAs {α : Type} (tree : FileTree) (path : Path) (what : String)
    (ofDocument? : Json → Option α) : Except Complaint α := do
  match ofDocument? (← readJson tree path) with
  | some value => return value
  | none =>
      throw { message := s!"{path.text} is not {what}"
              causes := [Complaint.tagged Json.Fault.mismatched.tag] }

/-- The filter of a command; its arguments go before the settings of its directory. -/
def ReportCommand.filter (command : ReportCommand) (settings : ReportSettings) :
    Except Complaint ReportFilter :=
  let orElse (given usual : List String) : List String := if given.isEmpty then usual else given
  let filter := ReportFilter.ofTexts (command.leastSeverity.or settings.leastSeverity)
    (orElse command.blacklist settings.blacklist) (orElse command.whitelist settings.whitelist)
  filter.mapError fun unknown =>
    { message := s!"invalid minimum severity {Text.quote unknown.text}"
      causes := [Complaint.tagged "enum"] }

def ReportCommand.document (styled : Bool) (tree : FileTree) (command : ReportCommand) :
    Except Complaint String := do
  let settings ← (Settings.loadFrom tree command.directory).mapError Complaint.ofSettings
  let filter ← command.filter settings.report
  let reports ← readAs tree command.report "an issue report" IssueReport.ofDocument?
  let input ← readAs tree command.input "an analysis input" AnalysisInput.ofDocument?
  let (_, reports) := filter.apply reports
  let decoded := decodeIssues reports input
  return match (command.layout.or settings.report.layout).getD .text with
    | .text => issueBlocks styled decoded
    | .lines => annotatedLines styled (LineIndex.ofReports reports input)
    | .json => json false (.array (decoded.map (·.toJson)))
    | .prettyJson => json true (.array (decoded.map (·.toJson)))

/-! ## Source maps -/

def SourceMapCommand.document (command : SourceMapCommand) : Except Complaint String :=
  match command.rehomed with
  | some target => .ok (SourceMap.rehome target command.sourceMap)
  | none =>
      match SourceMap.decode command.sourceMap with
      | .error malformed =>
          .error { message := "failed to decode source map", causes := [malformed.message] }
      | .ok entries =>
          if command.compresses then .ok (SourceMap.encode entries)
          else if command.isJson then .ok (json true (.array (entries.map entryJson)))
          else .ok (entryList command.sourceList entries)

/-! ## All commands -/

def Invocation.run (styled : Bool) (tree : FileTree) : Invocation → Outcome
  | .payload command => command.run styled tree
  | .report command => .of tree [] command.output (command.document styled tree)
  | .sourceMap command => .of tree [] none command.document
  | .detect directory => .of tree [] none (.ok (BuildTool.detect tree directory).name)

def versionText : String := "solnorm 0.0.1\n"

end ArtifactAtlas.CommandLine
