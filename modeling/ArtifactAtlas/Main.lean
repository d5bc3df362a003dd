import ArtifactAtlas.CommandLine.Survey

/-!
# The command line

Looks up the variables and files that a command asks about, runs it and writes
what comes of it.
-/

namespace ArtifactAtlas.CommandLine

def readEnvironment : IO Environment :=
  variableNames.filterMapM fun name => do
    return (← IO.getEnv name).map (name, ·)

/-- What is at a path on disk; nothing if it cannot be looked at. -/
partial def readNode (depth : Depth) (path : String) : IO (Option FileTree.Node) := do
  try
    let place ← IO.FS.realPath path
    match (← place.metadata).type with
    | .file =>
        let content ← if depth.reads then IO.FS.readBinFile path else pure .empty
        return some (.file content)
    | .dir =>
        let mut node := FileTree.Node.empty
        if depth = .here then return some node
        for entry in ← place.readDir do
          let name := entry.fileName
          let below := path ++ "/" ++ name
          match (← entry.path.symlinkMetadata).type with
          | .file =>
              if let some file ← readNode depth below then node := .putEntry name file node
          | .dir =>
              let depth := if depth.enters name then depth else .here
              if let some directory ← readNode depth below then
                node := .putEntry name directory node
          | _ => pure ()
        return some node
    | _ => return none
  catch _ => return none

/-- The absolute path of a way of names. -/
def pathOf (way : List String) : String :=
  (Path.ofComponents (.root :: way.map .name)).text

/-- Adds to a tree what a visit finds and the directories on the way there. -/
def visit (tree : FileTree) (visit : Visit) : IO FileTree := do
  let stations := visit.stations (workingPath tree)
  let passed ← stations.dropLast.foldlM (fun tree way => do
    return ((← readNode .here (pathOf way)).map (tree.add way)).getD tree) tree
  match stations.getLast? with
  | none => return passed
  | some way => return ((← readNode visit.depth (pathOf way)).map (passed.add way)).getD passed

/-- The tree as far as a command looks at it. -/
def survey (invocation : Invocation) : IO FileTree := do
  let workingDirectory := (Path.mk (← IO.currentDir).toString).names
  let start : FileTree := { root := .empty, workingDirectory }
  let mut tree := start
  for _ in [0:surveys] do
    tree ← (Visit.here ⟨"."⟩ :: invocation.visits tree).foldlM visit start
  return tree

def usage : String :=
  "Usage: solnorm <payload|report|srcmap|detect> [OPTIONS] [ARGUMENTS]"

/-- Writes what comes of a command and gives the status to exit with. -/
def finish (styled : Bool) (invocation : Invocation) (outcome : Outcome) : IO UInt32 := do
  for notice in outcome.notices do
    IO.eprintln notice
  IO.print outcome.printed
  match outcome.complaint with
  | some complaint =>
      IO.eprintln (complaint.render styled)
      return 1
  | none =>
      if let some path := invocation.output? then
        if let .ok text := outcome.tree.readText path then
          IO.FS.writeFile path.text text
      return 0

/-- Colours are for terminals. -/
def isStyled : IO Bool := do
  return (← (← IO.getStdout).isTty) && (← (← IO.getStderr).isTty)

end ArtifactAtlas.CommandLine

open ArtifactAtlas.CommandLine

def main (arguments : List String) : IO UInt32 := do
  match Invocation.read (← readEnvironment) arguments with
  | .error .refused =>
      IO.eprintln usage
      return 2
  | .error .help =>
      IO.println usage
      return 0
  | .error .version =>
      IO.print versionText
      return 0
  | .ok invocation =>
      let styled ← isStyled
      finish styled invocation (invocation.run styled (← survey invocation))
