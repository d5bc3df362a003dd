import ArtifactAtlas.Artifact.Failure
import ArtifactAtlas.Settings
import ArtifactAtlas.Text.Style

/-!
# Complaints

What the program says when it fails: the failure, its causes, and a hint where
the user can do something about it.
-/

namespace ArtifactAtlas.CommandLine

structure Complaint where
  message : String
  causes : List String := []
  /-- Whether the build output is to blame. -/
  blamesBuild : Bool := false
  deriving DecidableEq, Repr

namespace Complaint

/-- A cause outside the program is shown by its tag alone. -/
def tagged (tag : String) : String :=
  "<" ++ tag ++ ">"

def ofFailure : Failure → Complaint
  | .malformed path fault =>
      ⟨(Failure.malformed path fault).message, [tagged fault.tag], true⟩
  | .unreadable path fault =>
      ⟨(Failure.unreadable path fault).message, [tagged fault.tag], true⟩
  | .assembly contract cause =>
      let inner := ofFailure cause
      ⟨(Failure.assembly contract cause).message, inner.message :: inner.causes,
        inner.blamesBuild⟩
  | failure => ⟨failure.message, [], failure.isBuild⟩

def ofSettings (failure : Settings.Failure) : Complaint where
  message := failure.message
  causes :=
    match failure with
    | .unreadable _ fault => [tagged fault.tag]
    | .invalid _ => [tagged "toml"]

/-- What to do about a build that cannot be used. -/
def hint : String :=
  "Build the project first, or point --build-dir at its build output."

/-- The text of the complaint, in colours where texts are styled. -/
def render (styled : Bool) (complaint : Complaint) : String :=
  let causes :=
    if complaint.causes.isEmpty then ""
    else "\n\nCaused by:" ++ String.join (complaint.causes.map ("\n  " ++ ·))
  let advice := if complaint.blamesBuild then "\n\n" ++ Text.paint styled .yellow hint else ""
  "Error: \n" ++ Text.paint styled .red complaint.message ++ causes ++ advice

end Complaint

end ArtifactAtlas.CommandLine
