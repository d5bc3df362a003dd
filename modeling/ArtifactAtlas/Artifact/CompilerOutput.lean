import ArtifactAtlas.Artifact.Contract
import ArtifactAtlas.Artifact.Failure

/-!
# Compiler output

The parts of a compiler's standard JSON output that contracts and sources are
made from.
-/

namespace ArtifactAtlas.CompilerOutput

/-- The contract that the output of a compiler gives under a source and a name. -/
def contract (origin : Path) (name source : String) (data : Json) (sourceList : SourceList) :
    Except Failure Contract := do
  let text (place : List String) : Except Failure String :=
    match (data.path? place).bind Json.string? with
    | some text => .ok text
    | none => .error (.build origin (.incompleteContract name source place))
  let bytecode ← text ["evm", "bytecode", "object"]
  let deployedBytecode ← text ["evm", "deployedBytecode", "object"]
  let sourceMap ← text ["evm", "bytecode", "sourceMap"]
  let deployedSourceMap ← text ["evm", "deployedBytecode", "sourceMap"]
  return {
    name, bytecode, deployedBytecode, sourceMap, deployedSourceMap, sourceList
    mainSource := source }

/-- The text of a source among the `sources` of a compiler's input. -/
def content? (inputSources : Json) (path : String) : Option String :=
  (inputSources.path? [path, "content"]).bind Json.string?

/-- The records of the sources that a list names and that have a text. -/
def records (sourceList : SourceList) (record? : Nat → String → Option SourceRecord) :
    List (String × SourceRecord) :=
  sourceList.placed.filterMap fun (index, path) => (record? index path).map (path, ·)

end ArtifactAtlas.CompilerOutput
