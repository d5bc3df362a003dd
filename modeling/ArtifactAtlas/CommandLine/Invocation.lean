import ArtifactAtlas.CommandLine.Arguments
import ArtifactAtlas.Path
import ArtifactAtlas.Project.BuildTool
import ArtifactAtlas.Report.Layout
import ArtifactAtlas.Text.Numeral

/-!
# Invocations

The commands of the program and what each is told to do.
-/

namespace ArtifactAtlas.CommandLine

/-! ## Commands -/

inductive PayloadShape where
  | requests
  | job
  | raw
  deriving DecidableEq, Repr

def PayloadShape.ofName? : String → Option PayloadShape
  | "requests" => some .requests
  | "job" => some .job
  | "raw" => some .raw
  | _ => none

structure PayloadCommand where
  targets : List Path
  directory : Path
  buildTool : Option BuildTool
  buildOutput : Option Path
  solcVersion : Option String
  keepsPaths : Bool
  shape : PayloadShape
  output : Option Path
  isPretty : Bool
  deriving Repr

structure ReportCommand where
  report : Path
  input : Path
  layout : Option ReportLayout
  directory : Path
  leastSeverity : Option String
  blacklist : List String
  whitelist : List String
  output : Option Path
  deriving Repr

structure SourceMapCommand where
  sourceMap : String
  rehomed : Option Nat
  compresses : Bool
  sourceList : List String
  isJson : Bool
  deriving Repr

inductive Invocation where
  | payload (command : PayloadCommand)
  | report (command : ReportCommand)
  | sourceMap (command : SourceMapCommand)
  | detect (directory : Path)
  deriving Repr

/-! ## Rules -/

/-- Paths are never empty. -/
def isPath (text : String) : Bool :=
  text ≠ ""

def projectDirectory : OptionRule where
  name := "project-dir"
  letter := some 'C'
  arity := .once
  environment := some "SOLNORM_PROJECT_DIR"
  accepts := isPath

def outputFile : OptionRule where
  name := "output"
  letter := some 'o'
  arity := .once
  accepts := isPath

def payloadRules : Rules where
  options := [
    projectDirectory,
    { name := "ide", arity := .once, environment := some "SOLNORM_IDE"
      accepts := fun text => (BuildTool.ofName? text).isSome },
    { name := "build-dir", letter := some 'b', arity := .once
      environment := some "SOLNORM_BUILD_DIR", accepts := isPath },
    { name := "solc-version", arity := .once, environment := some "SOLNORM_SOLC_VERSION" },
    { name := "no-sanitize", arity := .flag },
    { name := "shape", letter := some 's', arity := .once
      accepts := fun text => (PayloadShape.ofName? text).isSome },
    outputFile,
    { name := "pretty", arity := .flag }]
  mostOperands := none
  acceptsOperand := isPath

def reportRules : Rules where
  options := [
    { name := "input", letter := some 'i', arity := .once, accepts := isPath },
    { name := "format", letter := some 'f', arity := .once
      environment := some "SOLNORM_REPORT_FORMAT"
      accepts := fun text => (ReportLayout.ofName? text).isSome },
    projectDirectory,
    { name := "min-severity", arity := .once, environment := some "SOLNORM_MIN_SEVERITY" },
    { name := "swc-blacklist", arity := .repeated
      environment := some "SOLNORM_SWC_BLACKLIST" },
    { name := "swc-whitelist", arity := .repeated
      environment := some "SOLNORM_SWC_WHITELIST" },
    outputFile]
  mostOperands := some 1
  acceptsOperand := isPath

def sourceMapRules : Rules where
  options := [
    { name := "rehome", arity := .once
      accepts := fun text => (Numeral.size? text.toList).isSome },
    { name := "compress", arity := .flag },
    { name := "source-list", arity := .repeated, separator := some ',' },
    { name := "json", arity := .flag }]
  mostOperands := some 1
  acceptsOperand := fun _ => true

def detectRules : Rules where
  options := []
  mostOperands := some 1
  acceptsOperand := isPath

def variableNames : List String :=
  ([payloadRules, reportRules, sourceMapRules, detectRules].flatMap (·.options)).filterMap
    (·.environment)

/-! ## Reading invocations -/

/-- The directory to work on, which is the working directory unless another is given. -/
def directoryOf (given : Given) : Path :=
  ⟨(given.value? "project-dir").getD "."⟩

def payloadCommand (given : Given) : PayloadCommand where
  targets := given.operands.map Path.mk
  directory := directoryOf given
  buildTool := (given.value? "ide").bind BuildTool.ofName?
  buildOutput := (given.value? "build-dir").map Path.mk
  solcVersion := given.value? "solc-version"
  keepsPaths := given.has "no-sanitize"
  shape := ((given.value? "shape").bind PayloadShape.ofName?).getD .requests
  output := (given.value? "output").map Path.mk
  isPretty := given.has "pretty"

/-- A report command needs a report and an input. -/
def reportCommand? (given : Given) : Option ReportCommand := do
  let report ← given.operands.head?
  let input ← given.value? "input"
  return {
    report := ⟨report⟩
    input := ⟨input⟩
    layout := (given.value? "format").bind ReportLayout.ofName?
    directory := directoryOf given
    leastSeverity := given.value? "min-severity"
    blacklist := given.values "swc-blacklist"
    whitelist := given.values "swc-whitelist"
    output := (given.value? "output").map Path.mk }

/-- A source map command needs a source map and shows it in one way only. -/
def sourceMapCommand? (given : Given) : Option SourceMapCommand := do
  let sourceMap ← given.operands.head?
  if (["rehome", "compress", "json"].filter given.has).length > 1 then none
  return {
    sourceMap
    rehomed := (given.value? "rehome").bind fun text => Numeral.size? text.toList
    compresses := given.has "compress"
    sourceList := given.values "source-list"
    isJson := given.has "json" }

inductive CommandName where
  | payload
  | report
  | sourceMap
  | detect
  | help
  deriving DecidableEq, Repr

/-- Commands have a name and, but for help, a letter that stands for it. -/
def CommandName.of? : String → Option CommandName
  | "payload" | "p" => some .payload
  | "report" | "r" => some .report
  | "srcmap" | "s" => some .sourceMap
  | "detect" | "d" => some .detect
  | "help" => some .help
  | _ => none

/-- What is left where something is missing. -/
def orRefuse {α : Type} : Option α → Except Halt α
  | some value => .ok value
  | none => .error .refused

/-- The outcome of asking for help on a command. -/
def helpOn : List String → Halt
  | [] => .help
  | [name] => if (CommandName.of? name).isSome then .help else .refused
  | _ => .refused

def Invocation.ofCommand (environment : Environment) (arguments : List String) :
    CommandName → Except Halt Invocation
  | .payload => do
      return .payload (payloadCommand (← payloadRules.read environment arguments))
  | .report => do
      return .report (← orRefuse (reportCommand? (← reportRules.read environment arguments)))
  | .sourceMap => do
      return .sourceMap
        (← orRefuse (sourceMapCommand? (← sourceMapRules.read environment arguments)))
  | .detect => do
      let given ← detectRules.read environment arguments
      return .detect ⟨given.operands.head?.getD "."⟩
  | .help => .error (helpOn arguments)

def Invocation.read (environment : Environment) : List String → Except Halt Invocation
  | [] => .error .refused
  | first :: arguments =>
      match Argument.of first with
      | .long "help" none => .error .help
      | .long "version" none => .error .version
      | .letters ('h' :: _) => .error .help
      | .letters ('V' :: _) => .error .version
      | .operand =>
          match CommandName.of? first with
          | some name => ofCommand environment arguments name
          | none => .error .refused
      | _ => .error .refused

end ArtifactAtlas.CommandLine
