import ArtifactAtlas.Project.Brownie
import ArtifactAtlas.Project.Hardhat
import ArtifactAtlas.Project.Solidity
import ArtifactAtlas.Project.Truffle

/-!
# Loading projects

A project is loaded from the output of its build tool, which is told by its
configuration file unless it is named.
-/

namespace ArtifactAtlas

namespace BuildTool

/-- The first tool that has left a configuration file in a project directory. -/
def detect (tree : FileTree) (directory : Path) : BuildTool :=
  let configures (tool : BuildTool) : Bool :=
    tool.configurations.any fun name => tree.isFile (directory.join ⟨name⟩)
  ([hardhat, truffle, brownie].find? configures).getD solidity

def load : BuildTool → FileTree → ProjectOptions → Except Failure Artifacts
  | solidity => Solidity.load
  | truffle => Truffle.load
  | hardhat => Hardhat.load
  | brownie => Brownie.load

end BuildTool

/-- A project as arguments and settings describe it. -/
structure Project where
  buildTool : BuildTool
  /-- What to load of the project, as files and directories; everything if there are none. -/
  targets : List Path
  options : ProjectOptions
  sanitizes : Bool

def Project.load (project : Project) (tree : FileTree) : Except Failure Artifacts :=
  project.buildTool.load tree project.options

end ArtifactAtlas
