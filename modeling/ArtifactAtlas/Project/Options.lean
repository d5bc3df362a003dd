import ArtifactAtlas.Project.BuildTool
import ArtifactAtlas.Project.IncludeSet

/-!
# Project options

What to load and from where.
-/

namespace ArtifactAtlas

structure ProjectOptions where
  /-- Relative paths are seen from here. -/
  directory : Path
  /-- Where the build output is, if not where the build tool leaves it. -/
  output : Option Path
  included : IncludeSet
  /-- Goes before any version that the build files name. -/
  solcVersion : Option String

namespace ProjectOptions

def outputOf (options : ProjectOptions) (tool : BuildTool) : Path :=
  (options.output.getD tool.defaultOutput).absoluteFrom options.directory

def includes (options : ProjectOptions) (source : String) : Bool :=
  options.included.includes source options.directory

/-- The file next to a source that holds its text from before instrumentation. -/
def originalPath (source : Path) : Path :=
  ⟨source.text ++ ".original"⟩

/-- The text that a source had before it was instrumented. -/
def originalSource? (options : ProjectOptions) (tree : FileTree) (source : String) :
    Option String :=
  (tree.readText (originalPath ((Path.mk source).absoluteFrom options.directory))).toOption

end ProjectOptions

end ArtifactAtlas
