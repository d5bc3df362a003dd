import ArtifactAtlas.Artifact.Artifacts
import ArtifactAtlas.Artifact.ImportGraph
import ArtifactAtlas.Artifact.IndexTable
import ArtifactAtlas.Project.Options
import ArtifactAtlas.SourceMap.Rehome

/-!
# Truffle projects

Every contract has a file, which does not say what the file indices of its source
maps mean.  The sources of a contract are its own and those that it imports.
-/

namespace ArtifactAtlas.Truffle

def sourceKey : String := "sourcePath"

/-- A source list, and whether source maps have to be rehomed to go with it. -/
structure Layout where
  sourceList : SourceList
  rehomed : Bool

def recordedIndex? (index : BuildIndex) (source : String) : Option Nat := do
  Ast.fileIndex? (← (← index.first? source).data.get? "ast")

/-- The layout of sources of which the first is the contract's own.  Where their trees
record indices that tell them apart, it follows those; otherwise the own source comes
first and source maps keep only that. -/
def layout (index : BuildIndex) (origin : Path) (sources : List String) :
    Except Failure Layout :=
  match sources.mapM fun source => (recordedIndex? index source).map (·, source) with
  | some table =>
      if (table.map Prod.fst).Nodup then
        (SourceList.ofTable origin table).map fun list => ⟨list, false⟩
      else .ok ⟨sources, true⟩
  | none => .ok ⟨sources, true⟩

/-- The sources of the files that a file imports, without its own. -/
def importedSources (index : BuildIndex) (graph : ImportGraph) (file : BuildFile)
    (source : String) : List String :=
  let sources := (graph.importsOf file.path).filterMap (index.sourceAt? · sourceKey)
  (OrderedSet.ofList (sources.filter (· ≠ source))).keys

def contract (file : BuildFile) (source : String) (layout : Layout) :
    Except Failure Contract := do
  let rehome (map : String) : String := if layout.rehomed then SourceMap.rehome 0 map else map
  let sourceMap ← file.requiredText "sourceMap"
  let deployedSourceMap ← file.requiredText "deployedSourceMap"
  let name ← file.requiredText "contractName"
  let bytecode ← file.requiredText "bytecode"
  let deployedBytecode ← file.requiredText "deployedBytecode"
  return {
    name, bytecode, deployedBytecode
    sourceMap := rehome sourceMap
    deployedSourceMap := rehome deployedSourceMap
    sourceList := layout.sourceList
    mainSource := source }

/-- The record of a source, from the first file that declares it. -/
def record (origin : BuildFile) (index : Nat) (path : String) : Except Failure SourceRecord :=
  do
  return {
    path
    source := ← origin.requiredText "source"
    ast := ← origin.required "ast"
    legacyAst := origin.legacyAst?
    fileIndex := some index
    originalSource := none }

/-- The records of the sources in a list that some file declares. -/
def records (index : BuildIndex) (list : SourceList) :
    Except Failure (List (String × SourceRecord)) :=
  let declared := list.placed.filterMap fun (place, path) =>
    (index.first? path).map (place, path, ·)
  declared.mapM fun (place, path, origin) => return (path, ← record origin place path)

/-- What a file adds; a file with an import that stands for no source adds nothing. -/
def portion (index : BuildIndex) (graph : ImportGraph) (source : String)
    (file : BuildFile) : Except Failure Portion := do
  if !(graph.unresolvedOf file.path).isEmpty then return .none
  let sources := source :: importedSources index graph file source
  let contract ← contract file source (← layout index file.path sources)
  return {
    contracts := [(source, contract)]
    sources := ← records index contract.sourceList
    solcVersion := file.compilerVersion? }

def ofIndex (index : BuildIndex) (options : ProjectOptions) : Except Failure Artifacts := do
  let graph := ImportGraph.ofIndex index sourceKey
  let declared := index.groups.toList.filter fun (source, _) => options.includes source
  let portions ← declared.mapM fun (source, files) =>
    files.mapM (portion index graph source)
  return .gather portions.flatten

def load (tree : FileTree) (options : ProjectOptions) : Except Failure Artifacts := do
  let index ← BuildIndex.load tree (options.outputOf .truffle) sourceKey fun _ => false
  let artifacts ← ofIndex index options
  return { artifacts with solcVersion := options.solcVersion.or artifacts.solcVersion }

end ArtifactAtlas.Truffle
