import ArtifactAtlas.Artifact.Contract

/-!
# Artifacts

The contracts of a project with the sources they refer to.  They are gathered
from portions, one for each build file.
-/

namespace ArtifactAtlas

structure Artifacts where
  contracts : ContractsBySource
  sources : Sources
  /-- The version of the compiler, if it is known. -/
  solcVersion : Option String

/-- What one build file adds: contracts under the sources that declare them, and
sources under their paths. -/
structure Portion where
  contracts : List (String × Contract)
  sources : List (String × SourceRecord)
  solcVersion : Option String

namespace Portion

def none : Portion := ⟨[], [], Option.none⟩

end Portion

namespace Artifacts

/-- The portions together: all contracts in order, of each source its first record, and
the first version that is known. -/
def gather (portions : List Portion) : Artifacts where
  contracts :=
    (portions.flatMap (·.contracts)).foldl
      (fun groups (source, contract) => groups.push source contract) .empty
  sources := OrderedMap.empty.insertNewAll (portions.flatMap (·.sources))
  solcVersion := portions.findSome? (·.solcVersion)

/-- The contracts of all sources, in order. -/
def allContracts (artifacts : Artifacts) : List Contract :=
  artifacts.contracts.values.flatten

end Artifacts

end ArtifactAtlas
