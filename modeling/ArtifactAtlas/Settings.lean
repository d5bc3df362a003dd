import ArtifactAtlas.FileTree.Access
import ArtifactAtlas.Project.BuildTool
import ArtifactAtlas.Report.Layout
import ArtifactAtlas.Toml.Document

/-!
# Settings

Settings of a project come from a TOML file in its directory.  Whatever the file
leaves out has its usual value; names that are no settings are refused.
-/

namespace ArtifactAtlas

structure ProjectSettings where
  buildTool : Option BuildTool := none
  output : Option Path := none
  targets : List Path := []
  solcVersion : Option String := none
  /-- Whether local directories are taken off paths. -/
  sanitize : Bool := true
  deriving DecidableEq, Repr

structure ReportSettings where
  leastSeverity : Option String := none
  blacklist : List String := []
  whitelist : List String := []
  layout : Option ReportLayout := none
  deriving DecidableEq, Repr

structure Settings where
  project : ProjectSettings := {}
  report : ReportSettings := {}
  deriving DecidableEq, Repr

namespace Settings

/-! ## Values -/

def string? : Toml → Option String
  | .string s => some s
  | _ => none

def bool? : Toml → Option Bool
  | .bool b => some b
  | _ => none

def strings? : Toml → Option (List String)
  | .array items => items.mapM string?
  | _ => none

def isEmpty : Toml → Bool
  | .array items => items.isEmpty
  | .table entries => entries.isEmpty
  | _ => false

/-- One of some names, as a text or as the only key of a table that has nothing in it. -/
def named? {α : Type} (values : List α) (name : α → String) : Toml → Option α
  | .string s => values.find? (name · = s)
  | .table [(key, value)] => if isEmpty value then values.find? (name · = key) else none
  | _ => none

/-- The values of settings: under their names in a table, or in order in an array, where
the last ones may be missing and further ones do not count. -/
def slots? (names : List String) : Toml → Option (List (Option Toml))
  | .table entries =>
      if entries.all fun entry => names.contains entry.1 then
        some (names.map fun name => Entries.lookup name entries)
      else none
  | .array items => some ((List.range names.length).map fun i => items[i]?)
  | _ => none

/-- A setting, or its usual value. -/
def setting? {α : Type} (read : Toml → Option α) (usual : α) : Option Toml → Option α
  | none => some usual
  | some value => read value

/-- A setting that may be missing. -/
def optional? {α : Type} (read : Toml → Option α) : Option Toml → Option (Option α)
  | none => some none
  | some value => (read value).map some

/-! ## Tables -/

def project? (table : Toml) : Option ProjectSettings := do
  match ← slots? ["ide", "build_directory", "targets", "solc_version", "sanitize"] table with
  | [tool, output, targets, version, sanitize] =>
      return {
        buildTool := ← optional? (named? BuildTool.all BuildTool.name) tool
        output := (← optional? string? output).map Path.mk
        targets := (← setting? strings? [] targets).map Path.mk
        solcVersion := ← optional? string? version
        sanitize := ← setting? bool? true sanitize }
  | _ => none

def report? (table : Toml) : Option ReportSettings := do
  match ← slots? ["min_severity", "swc_blacklist", "swc_whitelist", "format"] table with
  | [severity, blacklist, whitelist, layout] =>
      return {
        leastSeverity := ← optional? string? severity
        blacklist := ← setting? strings? [] blacklist
        whitelist := ← setting? strings? [] whitelist
        layout := ← optional? (named? ReportLayout.all ReportLayout.name) layout }
  | _ => none

def parse? (text : String) : Option Settings := do
  match ← slots? ["project", "report"] (.table (← Toml.parse? text)) with
  | [project, report] =>
      return {
        project := ← setting? project? {} project
        report := ← setting? report? {} report }
  | _ => none

/-! ## Files -/

inductive Failure where
  | unreadable (path : Path) (fault : FileTree.Fault)
  | invalid (path : Path)
  deriving DecidableEq, Repr

def Failure.message : Failure → String
  | unreadable path _ => s!"failed to read config file {path.quoted}"
  | invalid path => s!"invalid config file {path.quoted}"

def load (tree : FileTree) (path : Path) : Except Failure Settings :=
  match tree.readText path with
  | .error fault => .error (.unreadable path fault)
  | .ok text =>
      match parse? text with
      | some settings => .ok settings
      | none => .error (.invalid path)

/-- The name of the file that holds the settings of a directory. -/
def fileName : Path := ⟨".solnorm.toml"⟩

/-- The settings of a directory; without a file all are as usual. -/
def loadFrom (tree : FileTree) (directory : Path) : Except Failure Settings :=
  let path := directory.join fileName
  if tree.isFile path then load tree path else .ok {}

end Settings

end ArtifactAtlas
