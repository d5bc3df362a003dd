import ArtifactAtlas.Payload.Assembly
import ArtifactAtlas.Payload.Job
import ArtifactAtlas.Payload.Request

/-!
# Documents of a payload

A payload is written as one request per contract, as one job, or as it is.
-/

namespace ArtifactAtlas

open Json (Format)

namespace Payload

/-! ## Requests -/

def requestSource (record : SourceRecord) : RequestSource where
  source := record.source
  ast := record.ast
  legacyAst := record.legacyAst

/-- The request for one contract, with the sources of its list that the payload has. -/
def request (payload : Payload) (contract : Contract) : AnalysisRequest where
  contractName := contract.name
  bytecode := contract.bytecode
  sourceMap := contract.sourceMap
  deployedBytecode := contract.deployedBytecode
  deployedSourceMap := contract.deployedSourceMap
  sources := .ofList (contract.sourceList.filterMap fun path =>
    (payload.sources.get? path).map fun record => (path, requestSource record))
  sourceList := contract.sourceList
  mainSource := contract.mainSource
  solcVersion := payload.solcVersion

def requests (payload : Payload) : List AnalysisRequest :=
  payload.contracts.map payload.request

/-! ## Jobs -/

def jobContract (contract : Contract) : JobContract where
  sourcePaths := .ofList contract.sourceList.placed
  deployedSourceMap := contract.deployedSourceMap
  deployedBytecode := contract.deployedBytecode
  sourceMap := contract.sourceMap
  bytecode := contract.bytecode
  contractName := contract.name
  mainSourceFile := contract.mainSource

def jobSource (record : SourceRecord) : JobSource where
  fileIndex := record.fileIndex
  source := record.source
  ast := record.ast
  originalSource := record.originalSource

def job (payload : Payload) : Job where
  contracts := payload.contracts.map jobContract
  sources := payload.sources.mapValues fun _ record => jobSource record

/-! ## The payload itself -/

def toJson (payload : Payload) : Json :=
  .object [
    ("contracts", (Format.list Contract.format).encode payload.contracts),
    ("sources", (Format.mapping SourceRecord.format).encode payload.sources),
    ("solc_version", Format.text.optional.encode payload.solcVersion),
    ("skipped", (Format.list .text).encode payload.skipped),
    ("failed", (Format.list .text).encode payload.failed)]

end Payload

end ArtifactAtlas
