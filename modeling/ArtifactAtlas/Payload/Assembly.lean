import ArtifactAtlas.Artifact.Artifacts
import ArtifactAtlas.Artifact.Failure
import ArtifactAtlas.Bytecode

/-!
# Assembling payloads

A payload holds the contracts to submit, linked, and the sources that they refer
to.  Contracts without code are skipped; contracts whose own source is not known
fail.  Neither brings any source along.
-/

namespace ArtifactAtlas

namespace Contract

/-- Whether a text holds code or a map at all. -/
def hasContent (text : String) : Bool :=
  text ≠ "" && text ≠ "0x"

/-- Whether the contract has a name, code and maps; interfaces have no code. -/
def isSubmittable (contract : Contract) : Bool :=
  hasContent contract.bytecode && hasContent contract.sourceMap &&
    hasContent contract.deployedSourceMap && hasContent contract.deployedBytecode &&
    contract.name ≠ ""

/-- The bytecode with every library at address zero. -/
def linkedCode (code : String) : String :=
  if Bytecode.hasPlaceholders code then Bytecode.linkToZero code else code

def linked (contract : Contract) : Contract :=
  { contract with
    bytecode := linkedCode contract.bytecode
    deployedBytecode := linkedCode contract.deployedBytecode }

end Contract

structure Payload where
  contracts : List Contract
  sources : Sources
  solcVersion : Option String
  /-- The names of the contracts without code. -/
  skipped : List String
  /-- The names of the contracts whose own source is not known. -/
  failed : List String

namespace Payload

def empty (solcVersion : Option String) : Payload := ⟨[], .empty, solcVersion, [], []⟩

/-- The known records of the sources that a list names. -/
def knownSources (known : Sources) (list : SourceList) : List (String × SourceRecord) :=
  list.named.filterMap fun path => (known.get? path).map (path, ·)

/-- Links a contract and adds the sources it refers to; those that are there already stay. -/
def assembleContract (known pool : Sources) (contract : Contract) :
    Except Failure (Contract × Sources) :=
  if known.contains contract.mainSource then
    .ok (contract.linked, pool.insertNewAll (knownSources known contract.sourceList))
  else .error (.assembly contract.name (.noMainSource contract.mainSource))

/-- Adds a contract to a payload in the way that it has earned. -/
def add (known : Sources) (payload : Payload) (contract : Contract) : Payload :=
  if !contract.isSubmittable then
    { payload with skipped := payload.skipped ++ [contract.name] }
  else
    match assembleContract known payload.sources contract with
    | .ok (contract, sources) =>
        { payload with contracts := payload.contracts ++ [contract], sources }
    | .error _ => { payload with failed := payload.failed ++ [contract.name] }

def assemble (artifacts : Artifacts) : Payload :=
  artifacts.allContracts.foldl (add artifacts.sources) (empty artifacts.solcVersion)

end Payload

end ArtifactAtlas
