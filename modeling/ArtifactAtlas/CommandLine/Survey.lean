import ArtifactAtlas.CommandLine.Run

/-!
# Surveys

Which places a command looks at.  Settings and build files name further places, so
a survey goes by what is known of the tree so far: whoever has made all visits of a
survey knows enough for the next one.
-/

namespace ArtifactAtlas.CommandLine

/-- How much of a place counts. -/
inductive Depth where
  /-- What is there, but not what is in it if it is a directory. -/
  | here
  /-- The names of all that is below it, except what is in installed packages. -/
  | names
  /-- All that is below it. -/
  | contents
  deriving DecidableEq, Repr

namespace Depth

/-- Whether a directory of that name is gone into. -/
def enters (depth : Depth) (name : String) : Bool :=
  match depth with
  | here => false
  | names => name ≠ FileTree.packageDirectory
  | contents => true

def reads : Depth → Bool
  | names => false
  | _ => true

end Depth

structure Visit where
  path : Path
  depth : Depth
  deriving DecidableEq, Repr

namespace Visit

def here (path : Path) : Visit := ⟨path, .here⟩

/-- The places that lead from the root to that of a visit, each as the names on its way. -/
def stations (workingPath : Path) (visit : Visit) : List (List String) :=
  let components := (workingPath.join visit.path).components
  (List.range components.length).map fun count =>
    (Path.ofComponents (Path.resolveDots (components.take (count + 1)))).names

end Visit

/-- Where the settings of a directory and the traces of build tools are. -/
def directoryVisits (directory : Path) : List Visit :=
  let files := Settings.fileName.text :: BuildTool.all.flatMap (·.configurations)
  .here directory :: files.map fun name => .here (directory.join ⟨name⟩)

/-- Where the sources of artifacts are, as they are and as they were before instrumentation. -/
def sourceVisits (directory : Path) (artifacts : Artifacts) : List Visit :=
  (artifacts.allContracts.flatMap (·.sourceList.named)).flatMap fun source =>
    let path := (Path.mk source).absoluteFrom directory
    [.here path, .here (ProjectOptions.originalPath path)]

/-- The visits for a project; what is below a place comes before the place itself. -/
def projectVisits (tree : FileTree) (project : Project) : List Visit :=
  let directory := project.options.directory
  let sources :=
    match project.load tree with
    | .ok artifacts => sourceVisits directory artifacts
    | .error _ => []
  (project.targets.map fun target => ⟨target.absoluteFrom directory, .names⟩) ++
    ⟨project.options.outputOf project.buildTool, .contents⟩ :: sources

def PayloadCommand.visits (tree : FileTree) (command : PayloadCommand) : List Visit :=
  let further :=
    match command.project tree with
    | .ok project => projectVisits tree project
    | .error _ => []
  further ++ directoryVisits command.directory ++ command.output.toList.map .here

def ReportCommand.visits (command : ReportCommand) : List Visit :=
  directoryVisits command.directory ++
    ([command.report, command.input] ++ command.output.toList).map .here

/-- The visits that a command asks for, given what is known so far. -/
def Invocation.visits (tree : FileTree) : Invocation → List Visit
  | .payload command => command.visits tree
  | .report command => command.visits
  | .sourceMap _ => []
  | .detect directory => directoryVisits directory

/-- The first survey finds the settings, the second the build files and the third the
sources that those name. -/
def surveys : Nat := 3

/-- The file that a command writes, if not to the screen. -/
def Invocation.output? : Invocation → Option Path
  | .payload command => command.output
  | .report command => command.output
  | .sourceMap _ | .detect _ => none

end ArtifactAtlas.CommandLine
