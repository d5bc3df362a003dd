import ArtifactAtlas.FileTree.Access
import ArtifactAtlas.Json.Token
import ArtifactAtlas.Path
import ArtifactAtlas.SourceMap.Codec

/-!
# Failures

Why artifacts cannot be loaded or a contract not be assembled.  A failure of the
first sort names the file or directory to blame.
-/

namespace ArtifactAtlas

/-- What is wrong with a build directory or a file in it. -/
inductive BuildDefect where
  | noDirectory
  | noArtifacts
  | noOutput
  | noContracts
  | noOutputSources
  | missingKey (key : String)
  | indexOutOfRange (index : Nat) (path : String)
  | noIndexTable
  | badIndexEntry (key : String)
  | noDebugFile
  | noBuildInfoName
  | noContractOutput (source contract : String)
  /-- A contract in the output lacks a text, at the end of a path of member names. -/
  | incompleteContract (contract source : String) (missing : List String)
  deriving DecidableEq, Repr

def BuildDefect.reason : BuildDefect → String
  | noDirectory => "build directory does not exist"
  | noArtifacts => "no build artifacts found"
  | noOutput => "no compiler output found"
  | noContracts => "compiler output has no contracts"
  | noOutputSources => "build info is missing output.sources"
  | missingKey key => s!"build artifact is missing key {Text.quote key}"
  | indexOutOfRange index path => s!"source index {Numeral.text index} of {path} out of range"
  | noIndexTable => "allSourcePaths is not an object"
  | badIndexEntry key => s!"invalid allSourcePaths entry {Text.quote key}"
  | noDebugFile => "debug file of artifact not found"
  | noBuildInfoName => "buildInfo does not name a file"
  | noContractOutput source contract => s!"build info has no output for {source}:{contract}"
  | incompleteContract contract source missing =>
      let place := missing.map fun name => "/" ++ name
      s!"contract {contract} in {source} is missing {String.join place}"

inductive Failure where
  | build (path : Path) (defect : BuildDefect)
  | malformed (path : Path) (fault : Json.Fault)
  | unreadable (path : Path) (fault : FileTree.Fault)
  /-- There is no source under the path that a contract names as its own. -/
  | noMainSource (path : String)
  | assembly (contract : String) (cause : Failure)
  | sourceMap (defect : SourceMap.Malformed)
  deriving DecidableEq, Repr

namespace Failure

def message : Failure → String
  | build path defect => s!"build artifacts error at {path.quoted}: {defect.reason}"
  | malformed path _ => s!"malformed build artifact {path.quoted}"
  | unreadable path _ => s!"failed to read {path.quoted}"
  | noMainSource path => s!"source error for {path}: main source not found"
  | assembly contract cause =>
      s!"failed to assemble payload for contract {contract}: {cause.message}"
  | sourceMap defect => defect.message

/-- Whether the build itself is unusable, rather than some of the data in it. -/
def isBuild : Failure → Bool
  | build .. | malformed .. | unreadable .. => true
  | _ => false

end Failure

end ArtifactAtlas
