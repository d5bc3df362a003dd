import ArtifactAtlas.Artifact.Artifacts
import ArtifactAtlas.Artifact.BuildIndex
import ArtifactAtlas.Artifact.IndexTable
import ArtifactAtlas.Project.Options

/-!
# Brownie projects

Every contract has a file, which holds the index table of its compilation.
-/

namespace ArtifactAtlas.Brownie

def sourceKey : String := "sourcePath"

def tableEntry (origin : Path) (key : String) (path : Json) :
    Except Failure (Nat × String) :=
  match Numeral.size? key.toList, path.string? with
  | some index, some path => .ok (index, path)
  | _, _ => .error (.build origin (.badIndexEntry key))

def sourceList (file : BuildFile) : Except Failure SourceList := do
  match (← file.required "allSourcePaths").object? with
  | none => throw (.build file.path .noIndexTable)
  | some members =>
      SourceList.ofTable file.path
        (← members.mapM fun (key, path) => tableEntry file.path key path)

def contract (file : BuildFile) (source : String) : Except Failure Contract := do
  let name ← file.requiredText "contractName"
  let bytecode ← file.requiredText "bytecode"
  let deployedBytecode ← file.requiredText "deployedBytecode"
  let sourceMap ← file.requiredText "sourceMap"
  let deployedSourceMap ← file.requiredText "deployedSourceMap"
  let sourceList ← sourceList file
  return {
    name, bytecode, deployedBytecode, sourceMap, deployedSourceMap, sourceList
    mainSource := source }

/-- The record of a source, from the first file that declares it. -/
def record (tree : FileTree) (options : ProjectOptions) (origin : BuildFile) (index : Nat)
    (path : String) : Except Failure SourceRecord := do
  return {
    path
    source := ← origin.requiredText "source"
    ast := (origin.data.get? "ast").getD .null
    legacyAst := origin.legacyAst?
    fileIndex := some index
    originalSource := options.originalSource? tree path }

/-- The records of the sources in a list that some file declares. -/
def records (tree : FileTree) (options : ProjectOptions) (index : BuildIndex)
    (list : SourceList) : Except Failure (List (String × SourceRecord)) :=
  let declared := list.placed.filterMap fun (place, path) =>
    (index.first? path).map (place, path, ·)
  declared.mapM fun (place, path, origin) =>
    return (path, ← record tree options origin place path)

/-- What a file adds: its contract and the sources in its table. -/
def portion (tree : FileTree) (options : ProjectOptions) (index : BuildIndex)
    (source : String) (file : BuildFile) : Except Failure Portion := do
  let contract ← contract file source
  return {
    contracts := [(source, contract)]
    sources := ← records tree options index contract.sourceList
    solcVersion := file.compilerVersion? }

def load (tree : FileTree) (options : ProjectOptions) : Except Failure Artifacts := do
  let index ← BuildIndex.load tree (options.outputOf .brownie) sourceKey fun _ => false
  let declared := index.groups.toList.filter fun (source, _) => options.includes source
  let portions ← declared.mapM fun (source, files) =>
    files.mapM (portion tree options index source)
  let artifacts := Artifacts.gather portions.flatten
  return { artifacts with solcVersion := options.solcVersion.or artifacts.solcVersion }

end ArtifactAtlas.Brownie
