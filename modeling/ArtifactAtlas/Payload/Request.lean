import ArtifactAtlas.Artifact.Contract

/-!
# Analysis requests

What is sent for one contract: its code and maps, and the sources that its source
list names.
-/

namespace ArtifactAtlas

open Json (FieldFormat Format RecordFormat)

structure RequestSource where
  source : String
  ast : Json
  legacyAst : Option Json

def RequestSource.format : Format RequestSource :=
  RecordFormat.complete <|
    (RecordFormat.start RequestSource.mk)
    |>.field (.required "source" .text) (·.source)
    |>.field (.required "ast" .any) (·.ast)
    |>.field (.omittable "legacyAST" .any) (·.legacyAst)

structure AnalysisRequest where
  contractName : String
  bytecode : String
  sourceMap : String
  deployedBytecode : String
  deployedSourceMap : String
  sources : OrderedMap String RequestSource
  sourceList : SourceList
  mainSource : String
  solcVersion : Option String

def AnalysisRequest.format : Format AnalysisRequest :=
  RecordFormat.complete <|
    (RecordFormat.start AnalysisRequest.mk)
    |>.field (.required "contract_name" .text) (·.contractName)
    |>.field (.required "bytecode" .text) (·.bytecode)
    |>.field (.required "source_map" .text) (·.sourceMap)
    |>.field (.required "deployed_bytecode" .text) (·.deployedBytecode)
    |>.field (.required "deployed_source_map" .text) (·.deployedSourceMap)
    |>.field (.required "sources" (.mapping RequestSource.format)) (·.sources)
    |>.field (.required "source_list" (.list .text)) (·.sourceList)
    |>.field (.required "main_source" .text) (·.mainSource)
    |>.field (.omittable "solc_version" .text) (·.solcVersion)

end ArtifactAtlas
