import ArtifactAtlas.Artifact.Artifacts
import ArtifactAtlas.Artifact.BuildIndex
import ArtifactAtlas.Artifact.CompilerOutput
import ArtifactAtlas.Artifact.IndexTable
import ArtifactAtlas.Project.Options

/-!
# Hardhat projects

Every contract has an artifact file.  A debug file next to it names the build
info that holds the input and the output of its compilation.
-/

namespace ArtifactAtlas.Hardhat

def buildInfoDirectory : Path := ⟨"build-info"⟩

def isDebugFile (path : Path) : Bool :=
  path.fileName?.any fun name => ".dbg.json".toList.isSuffixOf name.toList

def buildInfoPath (tree : FileTree) (output : Path) (artifact : BuildFile) :
    Except Failure Path := do
  let debugPath := artifact.path.withExtension "dbg.json"
  if !tree.isFile debugPath then throw (.build debugPath .noDebugFile)
  let debugFile ← BuildFile.read tree debugPath
  let pointer ← debugFile.requiredText "buildInfo"
  match (Path.mk pointer).fileName? with
  | some name => return (output.join buildInfoDirectory).join ⟨name⟩
  | none => throw (.build debugPath .noBuildInfoName)

/-- The file of a compilation and the source list of its output. -/
structure BuildInfo where
  file : BuildFile
  sourceList : SourceList

namespace BuildInfo

def read (tree : FileTree) (path : Path) : Except Failure BuildInfo := do
  let file ← BuildFile.read tree path
  let some sources := file.data.path? ["output", "sources"]
    | throw (.build path .noOutputSources)
  return ⟨file, ← SourceList.ofOutput path sources⟩

def contract (info : BuildInfo) (source name : String) : Except Failure Contract :=
  match info.file.data.path? ["output", "contracts", source, name] with
  | some data => CompilerOutput.contract info.file.path name source data info.sourceList
  | none => .error (.build info.file.path (.noContractOutput source name))

/-- The record of a source whose text is in the input. -/
def record? (info : BuildInfo) (tree : FileTree) (options : ProjectOptions) (index : Nat)
    (path : String) : Option SourceRecord := do
  let inputSources := (info.file.data.path? ["input", "sources"]).getD .null
  let source ← CompilerOutput.content? inputSources path
  return {
    path, source
    ast := (info.file.data.path? ["output", "sources", path, "ast"]).getD .null
    legacyAst := none
    fileIndex := some index
    originalSource := options.originalSource? tree path }

end BuildInfo

/-- What an artifact file adds: its contract, and the sources of its whole compilation. -/
def portion (tree : FileTree) (options : ProjectOptions) (source : String)
    (artifact : BuildFile) : Except Failure Portion := do
  let name ← artifact.requiredText "contractName"
  let info ←
    BuildInfo.read tree (← buildInfoPath tree (options.outputOf .hardhat) artifact)
  let contract ← info.contract source name
  return {
    contracts := [(source, contract)]
    sources := CompilerOutput.records info.sourceList (info.record? tree options)
    solcVersion := (info.file.data.get? "solcVersion").bind Json.string? }

/-- The artifact files of a project, without debug files and build infos. -/
def artifactFiles (tree : FileTree) (output : Path) : Except Failure (List BuildFile) := do
  let files ← BuildFile.readAll tree output (·.endsWith buildInfoDirectory)
  let artifacts := files.filter fun file => !isDebugFile file.path
  if artifacts.isEmpty then throw (.build output .noArtifacts)
  return artifacts

def load (tree : FileTree) (options : ProjectOptions) : Except Failure Artifacts := do
  let files ← artifactFiles tree (options.outputOf .hardhat)
  let index ← BuildIndex.ofFiles "sourceName" files
  let declared := index.groups.toList.filter fun (source, _) => options.includes source
  let portions ← declared.mapM fun (source, files) =>
    files.mapM (portion tree options source)
  let artifacts := Artifacts.gather portions.flatten
  return { artifacts with solcVersion := options.solcVersion.or artifacts.solcVersion }

end ArtifactAtlas.Hardhat
