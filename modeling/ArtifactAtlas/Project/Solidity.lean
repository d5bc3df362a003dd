import ArtifactAtlas.Artifact.Artifacts
import ArtifactAtlas.Artifact.BuildFile
import ArtifactAtlas.Artifact.CompilerOutput
import ArtifactAtlas.Artifact.IndexTable
import ArtifactAtlas.Project.Options
import ArtifactAtlas.Project.Pragma

/-!
# Plain compiler output

The output is one file or a directory of them.  A document is the output of the
compiler, or its input and output together; the texts of sources come from the
input, or else from disk.
-/

namespace ArtifactAtlas.Solidity

/-- The compiler's output in a document. -/
def outputOf (document : Json) : Json :=
  (document.get? "output").getD document

/-- The documents to load: a file that is named, or those in a directory that have contracts. -/
def documents (tree : FileTree) (target : Path) : Except Failure (List BuildFile) := do
  let files ←
    if tree.isFile target then (BuildFile.read tree target).map ([·])
    else
      (BuildFile.readAll tree target fun _ => false).map fun files => files.filter fun file =>
        ((outputOf file.data).get? "contracts").isSome
  if files.isEmpty then throw (.build target .noOutput)
  return files

def contracts (options : ProjectOptions) (origin : Path) (sourceList : SourceList)
    (bySource : List (String × Json)) : Except Failure (List (String × Contract)) := do
  let named := (bySource.filter fun (source, _) => options.includes source).flatMap
    fun (source, byName) => (byName.object?.getD []).map fun (name, data) => (source, name, data)
  named.mapM fun (source, name, data) =>
    return (source, ← CompilerOutput.contract origin name source data sourceList)

/-- The record of a source of a document, if its text is there. -/
def record? (tree : FileTree) (options : ProjectOptions) (document outputSources : Json)
    (index : Nat) (path : String) : Option SourceRecord := do
  let inputSources := (document.path? ["input", "sources"]).getD .null
  let source ← (CompilerOutput.content? inputSources path).or
    (tree.readText ((Path.mk path).absoluteFrom options.directory)).toOption
  return {
    path, source
    ast := (outputSources.path? [path, "ast"]).getD .null
    legacyAst := outputSources.path? [path, "legacyAST"]
    fileIndex := some index
    originalSource := options.originalSource? tree path }

/-- What a document adds; without an included contract it adds nothing. -/
def portion (tree : FileTree) (options : ProjectOptions) (document : BuildFile) :
    Except Failure Portion := do
  let output := outputOf document.data
  let some bySource := (output.get? "contracts").bind Json.object?
    | throw (.build document.path .noContracts)
  let outputSources := (output.get? "sources").getD .null
  let sourceList ← SourceList.ofOutput document.path outputSources
  let contracts ← contracts options document.path sourceList bySource
  if contracts.isEmpty then return .none
  return {
    contracts
    sources :=
      CompilerOutput.records sourceList (record? tree options document.data outputSources)
    solcVersion := (document.data.get? "solcVersion").bind Json.string? }

/-- The version in the pragma of the first declaring source that has one. -/
def pragmaVersion? (artifacts : Artifacts) : Option String :=
  (artifacts.contracts.keys.filterMap artifacts.sources.get?).findSome? fun record =>
    Pragma.version? record.source

def load (tree : FileTree) (options : ProjectOptions) : Except Failure Artifacts := do
  let documents ← documents tree (options.outputOf .solidity)
  let artifacts := Artifacts.gather (← documents.mapM (portion tree options))
  return { artifacts with
    solcVersion :=
      (options.solcVersion.or artifacts.solcVersion).or (pragmaVersion? artifacts) }

end ArtifactAtlas.Solidity
