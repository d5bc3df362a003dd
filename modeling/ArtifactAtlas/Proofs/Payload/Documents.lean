import ArtifactAtlas.CommandLine.Run
import ArtifactAtlas.Proofs.Json.Format
import ArtifactAtlas.Proofs.Payload.Requests
import ArtifactAtlas.Proofs.Payload.Sanitize
import ArtifactAtlas.Proofs.Report.Input

/-!
# Documents as inputs

A report can be read against a payload in each of its shapes.  The sources of a job
and of the payload itself are those of the payload.  Requests hold only what their
lists name, so together they have every source because none is in the payload that
is not on a list, before and after sanitizing.
-/

namespace ArtifactAtlas

open Json (Format)

namespace Payload

/-! ## Sources on lists -/

/-- Every source of the payload is on the list of one of its contracts. -/
def IsListed (payload : Payload) : Prop :=
  ∀ path ∈ payload.sources.keys, path ∈ listed payload.contracts

theorem isListed_assemble (artifacts : Artifacts) : (assemble artifacts).IsListed := by
  intro path hpath
  obtain ⟨record, hrecord⟩ := OrderedMap.mem_keys_iff.mp hpath
  rw [listed_contracts_assemble]
  by_contra hlisted
  rw [get?_sources_assemble, if_neg hlisted] at hrecord
  cases hrecord

variable {payload : Payload} {directory : BytePath} {shared : Path}

theorem named_map_stripPath (list : SourceList) :
    SourceList.named (list.map fun path =>
      if path = "" then path else stripPath directory shared path) =
      list.named.map (stripPath directory shared) := by
  induction list with
  | nil => rfl
  | cons path rest ih =>
      by_cases hpath : path = ""
      · simpa [SourceList.named, hpath] using ih
      · simpa [SourceList.named, hpath, stripPath_ne_empty] using ih

theorem listed_strip (payload : Payload) :
    listed (payload.strip directory shared).contracts =
      (listed payload.contracts).map (stripPath directory shared) := by
  simp only [listed, strip, stripContract, List.flatMap_map, List.map_flatMap,
    named_map_stripPath]

theorem IsListed.strip (h : payload.IsListed) : (payload.strip directory shared).IsListed := by
  intro path hpath
  obtain ⟨record, hrecord⟩ := OrderedMap.mem_keys_iff.mp hpath
  obtain ⟨old, oldRecord, hold, rfl, -⟩ := exists_of_get?_sources_strip hrecord
  rw [listed_strip]
  exact List.mem_map_of_mem (h old (OrderedMap.mem_keys_iff.mpr ⟨oldRecord, hold⟩))

theorem IsListed.sanitize (h : payload.IsListed) (directory : BytePath) :
    (payload.sanitize directory).2.IsListed := by
  rw [Payload.sanitize]
  split
  case h_1 => exact h
  case h_2 => exact h.strip

/-! ## Sources of documents -/

theorem requestSource_yields :
    Format.Yields RequestSource.format InputSource.format fun s => ⟨some s.source⟩ := by
  rintro ⟨source, ast, _ | legacyAst⟩ <;> rfl

theorem jobSource_yields :
    Format.Yields JobSource.format InputSource.format fun s => ⟨some s.source⟩ := by
  rintro ⟨_ | fileIndex, source, ast, _ | originalSource⟩ <;> rfl

theorem sourceRecord_yields :
    Format.Yields SourceRecord.format InputSource.format fun s => ⟨some s.source⟩ := by
  rintro ⟨path, source, ast, _ | legacyAst, _ | fileIndex, _ | originalSource⟩ <;> rfl

/-! ## Inputs of documents -/

def requestInput (r : AnalysisRequest) : AnalysisInput where
  sources := r.sources.mapValues fun _ s => ⟨some s.source⟩
  sourceList := r.sourceList
  mainSource := some r.mainSource

theorem request_yields :
    Format.Yields AnalysisRequest.format AnalysisInput.format requestInput := by
  intro r
  have hsources := requestSource_yields.mapping r.sources
  have hlist : (Format.list Format.text).decode ((Format.list Format.text).encode r.sourceList) =
      some r.sourceList := by
    rw [Format.text_yields.list r.sourceList, List.map_id]
  obtain ⟨_, _, _, _, _, sources, sourceList, mainSource, _ | solcVersion⟩ := r
  all_goals exact AnalysisInput.decode_object hsources hlist rfl

/-- The input that has the sources of a payload and nothing else. -/
def sourcesInput (payload : Payload) : AnalysisInput where
  sources := payload.sources.mapValues fun _ record => ⟨some record.source⟩
  sourceList := []
  mainSource := none

theorem decode_job (payload : Payload) :
    AnalysisInput.format.decode (Job.format.encode payload.job) =
      some payload.sourcesInput := by
  have hsources := jobSource_yields.mapping payload.job.sources
  rw [job, OrderedMap.mapValues_mapValues] at hsources
  exact AnalysisInput.decode_object hsources rfl rfl

theorem decode_toJson (payload : Payload) :
    AnalysisInput.format.decode payload.toJson = some payload.sourcesInput :=
  AnalysisInput.decode_object (sourceRecord_yields.mapping payload.sources) rfl rfl

theorem sourceText?_sourcesInput (payload : Payload) (path : String) :
    payload.sourcesInput.sourceText? path = payload.sourceText? path := by
  rw [AnalysisInput.sourceText?, sourcesInput, OrderedMap.get?_mapValues, sourceText?]
  cases payload.sources.get? path <;> rfl

theorem get?_sources_requestInput (contract : Contract) (path : String) :
    (requestInput (payload.request contract)).sources.get? path =
      if path ∈ contract.sourceList then
        (payload.sources.get? path).map fun record => ⟨some record.source⟩
      else none := by
  rw [requestInput, OrderedMap.get?_mapValues, get?_sources_request]
  split
  case isTrue => rw [Option.map_map]; rfl
  case isFalse => rfl

theorem findSome?_listing {β : Type} (path : String) (found : Option β)
    (contracts : List Contract) :
    (contracts.findSome? fun contract =>
      if path ∈ contract.sourceList then found else none) =
      if path ∈ contracts.flatMap (·.sourceList) then found else none := by
  induction contracts with
  | nil => rfl
  | cons contract rest ih =>
      rw [List.findSome?_cons, ih]
      -- if nothing is found here although it is listed, nothing is found in the rest either
      by_cases hpath : path ∈ contract.sourceList
      · cases found <;> simp [hpath]
      · simp [hpath]

theorem get?_sources_merge_requests (payload : Payload) (path : String) :
    (AnalysisInput.merge (payload.requests.map requestInput)).sources.get? path =
      if path ∈ payload.contracts.flatMap (·.sourceList) then
        (payload.sources.get? path).map fun record => ⟨some record.source⟩
      else none := by
  rw [AnalysisInput.get?_sources_merge, requests, List.map_map, List.findSome?_map,
    ← findSome?_listing]
  congr 1
  funext contract
  exact get?_sources_requestInput contract path

theorem IsListed.sourceText?_merge (h : payload.IsListed) (path : String) :
    (AnalysisInput.merge (payload.requests.map requestInput)).sourceText? path =
      payload.sourceText? path := by
  -- what no request lists is not in the payload either
  have hunlisted : path ∉ payload.contracts.flatMap (·.sourceList) →
      payload.sources.get? path = none := by
    intro hpath
    refine OrderedMap.get?_eq_none_iff.mpr fun hkey => ?_
    obtain ⟨contract, hcontract, hnamed⟩ := List.mem_flatMap.mp (h path hkey)
    exact hpath (List.mem_flatMap.mpr ⟨contract, hcontract, (List.mem_filter.mp hnamed).1⟩)
  rw [AnalysisInput.sourceText?, get?_sources_merge_requests, sourceText?]
  split
  case isTrue => cases payload.sources.get? path <;> rfl
  case isFalse hpath => rw [hunlisted hpath]; rfl

/-! ## Reports read against documents -/

open CommandLine (PayloadShape payloadDocument)

/-- The input that the document of a shape is read as. -/
def documentInput (payload : Payload) : PayloadShape → AnalysisInput
  | .requests => .merge (payload.requests.map requestInput)
  | .job | .raw => payload.sourcesInput

theorem ofDocument?_payloadDocument (payload : Payload) (shape : PayloadShape) :
    AnalysisInput.ofDocument? (payloadDocument shape payload) =
      some (payload.documentInput shape) := by
  cases shape with
  | requests =>
      -- the document is a list, and each of its items is read as an input of its own
      have hitems := request_yields.list payload.requests
      exact congrArg (Option.map AnalysisInput.merge) hitems
  | job => exact decode_job payload
  | raw => exact decode_toJson payload

theorem IsListed.sourceText?_documentInput (h : payload.IsListed) (shape : PayloadShape)
    (path : String) :
    (payload.documentInput shape).sourceText? path = payload.sourceText? path := by
  cases shape with
  | requests => exact h.sourceText?_merge path
  | job => exact sourceText?_sourcesInput payload path
  | raw => exact sourceText?_sourcesInput payload path

/-- The payload of some artifacts as it is sent, sanitized or not. -/
def sent (artifacts : Artifacts) : Option BytePath → Payload
  | none => assemble artifacts
  | some directory => ((assemble artifacts).sanitize directory).2

theorem isListed_sent (artifacts : Artifacts) (directory : Option BytePath) :
    (sent artifacts directory).IsListed := by
  cases directory with
  | none => exact isListed_assemble artifacts
  | some directory => exact (isListed_assemble artifacts).sanitize directory

/--
The documents of a payload are interchangeable.  Each shape is read as an input that
has the texts of the payload's sources and no others, so reports say the same against
all of them.
-/
theorem documents_are_interchangeable (artifacts : Artifacts) (directory : Option BytePath) :
    ∃ input : PayloadShape → AnalysisInput,
      (∀ shape, AnalysisInput.ofDocument? (payloadDocument shape (sent artifacts directory)) =
        some (input shape)) ∧
      (∀ shape path, (input shape).sourceText? path =
        (sent artifacts directory).sourceText? path) ∧
      ∀ shape other reports,
        decodeIssues reports (input shape) = decodeIssues reports (input other) ∧
        LineIndex.ofReports reports (input shape) =
          LineIndex.ofReports reports (input other) := by
  have htexts := (isListed_sent artifacts directory).sourceText?_documentInput
  refine ⟨(sent artifacts directory).documentInput, ofDocument?_payloadDocument _, htexts, ?_⟩
  intro shape other reports
  have hsame : ∀ path, ((sent artifacts directory).documentInput shape).sourceText? path =
      ((sent artifacts directory).documentInput other).sourceText? path :=
    fun path => (htexts shape path).trans (htexts other path).symm
  exact ⟨decodeIssues_congr hsame reports, LineIndex.ofReports_congr hsame reports⟩

end Payload

end ArtifactAtlas
