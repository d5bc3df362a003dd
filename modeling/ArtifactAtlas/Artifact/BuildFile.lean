import ArtifactAtlas.Artifact.Failure
import ArtifactAtlas.Json.Format

/-!
# Build files

The JSON files that a build tool leaves in its build directory.
-/

namespace ArtifactAtlas

structure BuildFile where
  path : Path
  data : Json

namespace BuildFile

def read (tree : FileTree) (path : Path) : Except Failure BuildFile :=
  match tree.readText path with
  | .error fault => .error (.unreadable path fault)
  | .ok text =>
      match Json.parse text with
      | .error fault => .error (.malformed path fault)
      | .ok data => .ok ⟨path, data⟩

/-- Reads the JSON files of a build directory, except those in directories to skip. -/
def readAll (tree : FileTree) (directory : Path) (skip : Path → Bool) :
    Except Failure (List BuildFile) :=
  if tree.isDirectory directory then
    match tree.jsonFiles directory skip with
    | .error fault => .error (.unreadable directory fault)
    | .ok paths => paths.mapM (read tree)
  else .error (.build directory .noDirectory)

def text? (file : BuildFile) (key : String) : Option String :=
  (file.data.get? key).bind Json.string?

/-- The text under a key that must be there. -/
def requiredText (file : BuildFile) (key : String) : Except Failure String :=
  match file.text? key with
  | some text => .ok text
  | none => .error (.build file.path (.missingKey key))

/-- The value under a key that must be there and not `null`. -/
def required (file : BuildFile) (key : String) : Except Failure Json :=
  match (file.data.get? key).bind Json.present? with
  | some value => .ok value
  | none => .error (.build file.path (.missingKey key))

def legacyAst? (file : BuildFile) : Option Json :=
  (file.data.get? "legacyAST").bind Json.present?

def compilerVersion? (file : BuildFile) : Option String :=
  (file.data.path? ["compiler", "version"]).bind Json.string?

end BuildFile

end ArtifactAtlas
