import ArtifactAtlas.Path
import ArtifactAtlas.Text.Numeral

/-!
# Build tools

The tools whose build output can be loaded, each told by the configuration file
it leaves in the project directory.
-/

namespace ArtifactAtlas

inductive BuildTool where
  /-- No tool but the compiler. -/
  | solidity
  | truffle
  | hardhat
  | brownie
  deriving DecidableEq, Repr

namespace BuildTool

def all : List BuildTool := [solidity, truffle, hardhat, brownie]

def name : BuildTool → String
  | solidity => "solidity"
  | truffle => "truffle"
  | hardhat => "hardhat"
  | brownie => "brownie"

def ofName? (text : String) : Option BuildTool :=
  Text.keyword? all name text

/-- The configuration files that tell the tool. -/
def configurations : BuildTool → List String
  | solidity => []
  | truffle => ["truffle-config.js", "truffle.js"]
  | hardhat => ["hardhat.config.js", "hardhat.config.ts", "hardhat.config.cjs"]
  | brownie => ["brownie-config.yaml", "brownie-config.yml"]

/-- Where a tool leaves its output unless told otherwise. -/
def defaultOutput : BuildTool → Path
  | solidity => ⟨"out"⟩
  | truffle => ⟨"build/contracts"⟩
  | hardhat => ⟨"artifacts"⟩
  | brownie => ⟨"build/contracts"⟩

end BuildTool

end ArtifactAtlas
