import ArtifactAtlas.Json.MapFormat
import ArtifactAtlas.Json.Record

/-!
# Compiled contracts and their sources

A contract as a compiler leaves it: its code before and after deployment, the
source maps that lead from the code back to the text, and the list that the file
indices of those maps point into.
-/

namespace ArtifactAtlas

open Json (FieldFormat Format RecordFormat)

/-- Source paths by file index.  An empty path fills the place of an index without a file. -/
abbrev SourceList := List String

/-- The paths of a source list that are not empty. -/
def SourceList.named (list : SourceList) : List String :=
  list.filter (· ≠ "")

/-- The paths of a source list that are not empty, each with its file index. -/
def SourceList.placed (list : SourceList) : List (Nat × String) :=
  (list.zipIdx.filter (·.1 ≠ "")).map Prod.swap

structure Contract where
  name : String
  bytecode : String
  deployedBytecode : String
  sourceMap : String
  deployedSourceMap : String
  sourceList : SourceList
  /-- The path of the source that declares the contract. -/
  mainSource : String
  deriving DecidableEq, Repr

def Contract.format : Format Contract :=
  RecordFormat.complete <|
    (RecordFormat.start Contract.mk)
    |>.field (.required "contract_name" .text) (·.name)
    |>.field (.required "bytecode" .text) (·.bytecode)
    |>.field (.required "deployed_bytecode" .text) (·.deployedBytecode)
    |>.field (.required "source_map" .text) (·.sourceMap)
    |>.field (.required "deployed_source_map" .text) (·.deployedSourceMap)
    |>.field (.required "source_list" (.list .text)) (·.sourceList)
    |>.field (.required "main_source" .text) (·.mainSource)

structure SourceRecord where
  path : String
  source : String
  ast : Json
  legacyAst : Option Json
  /-- The file index that the source had when it was compiled. -/
  fileIndex : Option Nat
  /-- The text before it was instrumented. -/
  originalSource : Option String

def SourceRecord.format : Format SourceRecord :=
  RecordFormat.complete <|
    (RecordFormat.start SourceRecord.mk)
    |>.field (.required "path" .text) (·.path)
    |>.field (.required "source" .text) (·.source)
    |>.field (.required "ast" .any) (·.ast)
    |>.field (.omittable "legacy_ast" .any) (·.legacyAst)
    |>.field (.omittable "file_index" .natural) (·.fileIndex)
    |>.field (.omittable "original_source" .text) (·.originalSource)

/-- Contracts by the path of the source that declares them. -/
abbrev ContractsBySource := OrderedMap String (List Contract)

abbrev Sources := OrderedMap String SourceRecord

end ArtifactAtlas
