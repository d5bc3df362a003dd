import ArtifactAtlas.Ast
import ArtifactAtlas.BytePath
import ArtifactAtlas.Payload.Assembly

/-!
# Sanitizing payloads

Paths on the machine that built a project should not leave it.  The directory
that all paths of a payload share is taken off each of them.
-/

namespace ArtifactAtlas

namespace Payload

/-- A path of a payload as it is seen from a directory. -/
def seen (directory : BytePath) (path : String) : Path :=
  (Path.ofText path).absoluteFrom directory.toPath

/-- The paths that a payload refers to, as seen from a directory, in order. -/
def referencedPaths (payload : Payload) (directory : BytePath) : List Path :=
  let named := payload.contracts.flatMap fun contract =>
    contract.sourceList ++ [contract.mainSource]
  let paths := (named ++ payload.sources.keys).filter (· ≠ "")
  let keys := paths.map fun path => (seen directory path).components
  (OrderedSet.ofList keys).keys.map .ofComponents

/-- The directory that all paths share, unless it is the root.  Only one path is held
against the directory that it is seen from. -/
def sharedDirectory? (payload : Payload) (directory : BytePath) : Option Path :=
  let shared? :=
    match payload.referencedPaths directory with
    | [path] => Path.common? [path, directory.toPath]
    | paths => Path.common? paths
  shared?.filter (·.hasName)

/-- A path as it is written from inside the shared directory; none if it is outside or
the directory itself. -/
def stripped? (directory : BytePath) (shared : Path) (path : String) : Option String :=
  (((seen directory path).below? shared).map (·.writtenText)).filter (· ≠ "")

def stripPath (directory : BytePath) (shared : Path) (path : String) : String :=
  (stripped? directory shared path).getD path

def stripAst (directory : BytePath) (shared : Path) (ast : Json) : Json :=
  (Ast.rewritePath? (stripped? directory shared) ast).getD ast

def stripContract (directory : BytePath) (shared : Path) (contract : Contract) : Contract :=
  { contract with
    sourceList := contract.sourceList.map fun path =>
      if path = "" then path else stripPath directory shared path
    mainSource := stripPath directory shared contract.mainSource }

def stripRecord (directory : BytePath) (shared : Path) (path : String) (record : SourceRecord) :
    SourceRecord :=
  { record with
    path
    ast := stripAst directory shared record.ast
    legacyAst := record.legacyAst.map (stripAst directory shared) }

/-- The payload with each path as seen from inside a directory. -/
def strip (directory : BytePath) (shared : Path) (payload : Payload) : Payload :=
  { payload with
    contracts := payload.contracts.map (stripContract directory shared)
    sources := .ofList (payload.sources.toList.map fun (path, record) =>
      let path := stripPath directory shared path
      (path, stripRecord directory shared path record)) }

/-- Takes the shared directory, if there is one, off every path. -/
def sanitize (directory : BytePath) (payload : Payload) : Option Path × Payload :=
  match payload.sharedDirectory? directory with
  | none => (none, payload)
  | some shared => (some shared, payload.strip directory shared)

end Payload

end ArtifactAtlas
