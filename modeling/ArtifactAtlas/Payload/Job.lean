import ArtifactAtlas.Artifact.Contract

/-!
# Fuzzing jobs

All contracts and sources of a project in one document.
-/

namespace ArtifactAtlas

open Json (FieldFormat Format RecordFormat)

structure JobContract where
  /-- The source paths by file index. -/
  sourcePaths : OrderedMap Nat String
  deployedSourceMap : String
  deployedBytecode : String
  sourceMap : String
  bytecode : String
  contractName : String
  mainSourceFile : String
  deriving DecidableEq

def JobContract.format : Format JobContract :=
  RecordFormat.complete <|
    (RecordFormat.start JobContract.mk)
    |>.field (.required "sourcePaths" (.numbered .text)) (·.sourcePaths)
    |>.field (.required "deployedSourceMap" .text) (·.deployedSourceMap)
    |>.field (.required "deployedBytecode" .text) (·.deployedBytecode)
    |>.field (.required "sourceMap" .text) (·.sourceMap)
    |>.field (.required "bytecode" .text) (·.bytecode)
    |>.field (.required "contractName" .text) (·.contractName)
    |>.field (.required "mainSourceFile" .text) (·.mainSourceFile)

structure JobSource where
  fileIndex : Option Nat
  source : String
  ast : Json
  originalSource : Option String

def JobSource.format : Format JobSource :=
  RecordFormat.complete <|
    (RecordFormat.start JobSource.mk)
    |>.field (.omittable "fileIndex" .natural) (·.fileIndex)
    |>.field (.required "source" .text) (·.source)
    |>.field (.required "ast" .any) (·.ast)
    |>.field (.omittable "originalSource" .text) (·.originalSource)

structure Job where
  contracts : List JobContract
  sources : OrderedMap String JobSource

def Job.format : Format Job :=
  RecordFormat.complete <|
    (RecordFormat.start Job.mk)
    |>.field (.required "contracts" (.list JobContract.format)) (·.contracts)
    |>.field (.required "sources" (.mapping JobSource.format)) (·.sources)

end ArtifactAtlas
