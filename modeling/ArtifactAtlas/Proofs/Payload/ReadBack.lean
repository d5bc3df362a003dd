import ArtifactAtlas.Proofs.Json.RoundTrip
import ArtifactAtlas.Proofs.Payload.FileIndices
import ArtifactAtlas.Proofs.Payload.Requests

/-!
# Payloads read back

A job is read back as it was written.  So is a request, but for the older syntax trees of
its sources: where one is there but `null`, it is written, and read as missing.
-/

namespace ArtifactAtlas

open Json (FieldFormat Format RecordFormat)
open Json.FieldFormat (keeps_omittable keeps_omittable_any keeps_required)
open Json.Format (keeps_any keeps_list keeps_mapping keeps_natural keeps_numbered keeps_text
  keeps_texts)
open Json.RecordFormat (keeps_start)

/-! ## Requests -/

/-- The source as it is read back: a tree that is `null` is missing. -/
def RequestSource.readBack (source : RequestSource) : RequestSource :=
  { source with legacyAst := source.legacyAst.bind Json.present? }

/-- The request as it is read back. -/
def AnalysisRequest.readBack (request : AnalysisRequest) : AnalysisRequest :=
  { request with sources := request.sources.mapValues fun _ => RequestSource.readBack }

theorem RequestSource.keeps_format (source : RequestSource) :
    format.Keeps source source.readBack := by
  change format.Keeps source ⟨source.source, source.ast, source.legacyAst.bind Json.present?⟩
  refine RecordFormat.Keeps.complete (.field (.field (.field
    (keeps_start RequestSource.mk _) ?_) ?_) ?_) ?_
  · exact keeps_required _ (keeps_text _)
  · exact keeps_required _ (keeps_any _)
  · exact keeps_omittable_any _ _
  · decide

theorem AnalysisRequest.keeps_format (request : AnalysisRequest) :
    format.Keeps request request.readBack := by
  change format.Keeps request ⟨request.contractName, request.bytecode, request.sourceMap,
    request.deployedBytecode, request.deployedSourceMap,
    request.sources.mapValues fun _ => RequestSource.readBack, request.sourceList,
    request.mainSource, request.solcVersion⟩
  refine RecordFormat.Keeps.complete (.field (.field (.field (.field (.field (.field (.field
    (.field (.field (keeps_start AnalysisRequest.mk _) ?_) ?_) ?_) ?_) ?_) ?_) ?_) ?_) ?_) ?_
  · exact keeps_required _ (keeps_text _)
  · exact keeps_required _ (keeps_text _)
  · exact keeps_required _ (keeps_text _)
  · exact keeps_required _ (keeps_text _)
  · exact keeps_required _ (keeps_text _)
  · exact keeps_required _ (.mapping fun entry _ => entry.2.keeps_format)
  · exact keeps_required _ (keeps_texts _)
  · exact keeps_required _ (keeps_text _)
  · exact keeps_omittable _ keeps_text nofun _
  · decide

/-! ## Jobs -/

theorem JobContract.keeps_format {contract : JobContract}
    (h : ∀ index ∈ contract.sourcePaths.keys, index < Numeral.wordSize) :
    format.Keeps contract contract := by
  refine RecordFormat.Keeps.complete (.field (.field (.field (.field (.field (.field (.field
    (keeps_start JobContract.mk _) ?_) ?_) ?_) ?_) ?_) ?_) ?_) ?_
  · exact keeps_required _ (keeps_numbered h fun entry _ => keeps_text entry.2)
  · exact keeps_required _ (keeps_text _)
  · exact keeps_required _ (keeps_text _)
  · exact keeps_required _ (keeps_text _)
  · exact keeps_required _ (keeps_text _)
  · exact keeps_required _ (keeps_text _)
  · exact keeps_required _ (keeps_text _)
  · decide

theorem JobSource.keeps_format (source : JobSource) : format.Keeps source source := by
  refine RecordFormat.Keeps.complete (.field (.field (.field (.field
    (keeps_start JobSource.mk _) ?_) ?_) ?_) ?_) ?_
  · exact keeps_omittable _ keeps_natural nofun _
  · exact keeps_required _ (keeps_text _)
  · exact keeps_required _ (keeps_any _)
  · exact keeps_omittable _ keeps_text nofun _
  · decide

theorem Job.keeps_format {job : Job} (h : ∀ contract ∈ job.contracts,
    ∀ index ∈ contract.sourcePaths.keys, index < Numeral.wordSize) :
    format.Keeps job job := by
  refine RecordFormat.Keeps.complete (.field (.field (keeps_start Job.mk _) ?_) ?_) ?_
  · exact keeps_required _ (keeps_list fun contract hcontract =>
      JobContract.keeps_format (h contract hcontract))
  · exact keeps_required _ (keeps_mapping fun entry _ => entry.2.keeps_format)
  · decide

/-! ## Sources without a `null` for a tree -/

theorem RequestSource.readBack_eq_iff {source : RequestSource} :
    source.readBack = source ↔ source.legacyAst ≠ some .null := by
  obtain ⟨_, _, legacyAst⟩ := source
  cases legacyAst with
  | none => simp [readBack]
  | some value => cases value <;> simp [readBack, Json.present?, Json.isNull]

theorem AnalysisRequest.readBack_eq_iff {request : AnalysisRequest} :
    request.readBack = request ↔
      ∀ path source, request.sources.get? path = some source → source.legacyAst ≠ some .null := by
  constructor
  · intro h path source hsource
    have hsources := congrArg (fun request => request.sources.get? path) h
    simp only [readBack, OrderedMap.get?_mapValues, hsource, Option.map_some,
      Option.some.injEq] at hsources
    exact RequestSource.readBack_eq_iff.mp hsources
  · intro h
    have hsources : (request.sources.mapValues fun _ => RequestSource.readBack) =
        request.sources := by
      apply OrderedMap.eq_of_get?_eq
      intro path
      rw [OrderedMap.get?_mapValues]
      cases hsource : request.sources.get? path with
      | none => rfl
      | some source =>
          exact congrArg some (RequestSource.readBack_eq_iff.mpr (h path source hsource))
    rw [readBack, hsources]

theorem BuildFile.legacyAst?_ne_null (file : BuildFile) : file.legacyAst? ≠ some .null := by
  rw [legacyAst?]
  cases file.data.get? "legacyAST" with
  | none => nofun
  | some value => cases value <;> simp [Json.present?, Json.isNull]

namespace Payload

/-- A job is read back unless a list is longer than file indices can count. -/
theorem job_keeps_format {artifacts : Artifacts}
    (hlists : ∀ contract ∈ artifacts.allContracts,
      contract.sourceList.length ≤ Numeral.wordSize) :
    Job.format.Keeps (assemble artifacts).job (assemble artifacts).job := by
  refine Job.keeps_format fun compiled hcompiled index hindex => ?_
  obtain ⟨contract, hcontract, rfl⟩ := exists_contract_of_mem_job hcompiled
  obtain ⟨path, hpath⟩ := OrderedMap.mem_keys_iff.mp hindex
  obtain ⟨hlt, -⟩ := List.getElem?_eq_some_iff.mp (getElem?_of_sourcePaths hpath)
  exact Nat.lt_of_lt_of_le hlt (hlists contract hcontract)

/-- The sources of a request are records of the artifacts. -/
theorem exists_record_of_request {artifacts : Artifacts} {request : AnalysisRequest}
    (h : request ∈ (assemble artifacts).requests) {path : String} {source : RequestSource}
    (hsource : request.sources.get? path = some source) :
    ∃ record, artifacts.sources.get? path = some record ∧ source = requestSource record := by
  obtain ⟨contract, -, rfl⟩ := mem_requests_assemble.mp h
  rw [get?_sources_request, get?_sources_assemble] at hsource
  split at hsource
  case isFalse => cases hsource
  case isTrue =>
    obtain ⟨record, hrecord, rfl⟩ := Option.map_eq_some_iff.mp hsource
    split at hrecord
    case isTrue => exact ⟨record, hrecord, rfl⟩
    case isFalse => cases hrecord

end Payload

namespace BuildTool

variable {tree : FileTree} {options : ProjectOptions}

/-- Only documents of the compiler can have `null` for a tree. -/
theorem Adds.legacyAst_ne_null {tool : BuildTool} {portion : Portion}
    (h : Adds tree options tool portion) (htool : tool ≠ .solidity)
    {entry : String × SourceRecord} (hentry : entry ∈ portion.sources) :
    entry.2.legacyAst ≠ some .null := by
  cases h with
  | solidity h => contradiction
  | truffle _ h =>
      obtain rfl | hdeclared := Truffle.isDeclared_of_portion h
      · cases hentry
      · obtain ⟨origin, horigin⟩ := hdeclared.exists_origin hentry
        exact horigin ▸ origin.legacyAst?_ne_null
  | hardhat _ h =>
      simp only [Hardhat.portion, bind_eq_ok_iff, pure_eq_ok_iff] at h
      obtain ⟨_, -, _, -, info, -, _, -, rfl⟩ := h
      obtain ⟨_, -, hfound⟩ := List.mem_filterMap.mp hentry
      obtain ⟨record, hrecord, rfl⟩ := Option.map_eq_some_iff.mp hfound
      simp only [Hardhat.BuildInfo.record?, Option.bind_eq_bind, Option.bind_eq_some_iff,
        Option.pure_def, Option.some.injEq] at hrecord
      obtain ⟨_, -, rfl⟩ := hrecord
      exact (Option.some_ne_none _).symm
  | brownie _ h =>
      obtain ⟨origin, horigin⟩ := (Brownie.isDeclared_of_portion h).exists_origin hentry
      exact horigin ▸ origin.legacyAst?_ne_null

/--
The job of a project is read back as it was written.  A request is, exactly if no tree of
its sources is there but `null`; otherwise these trees are missing when it is read back.
Only the documents of the compiler have such trees.
-/
theorem payload_is_read_back_without_null_trees (tool : BuildTool) (tree : FileTree)
    (options : ProjectOptions) (artifacts : Artifacts)
    (h : tool.load tree options = .ok artifacts)
    (hlists : ∀ contract ∈ artifacts.allContracts,
      contract.sourceList.length ≤ Numeral.wordSize) :
    Job.format.decode (Job.format.encode (Payload.assemble artifacts).job) =
      some (Payload.assemble artifacts).job ∧
    ∀ request ∈ (Payload.assemble artifacts).requests,
      AnalysisRequest.format.decode (AnalysisRequest.format.encode request) =
        some request.readBack ∧
      (request.readBack = request ↔ ∀ path source, request.sources.get? path = some source →
        source.legacyAst ≠ some .null) ∧
      (tool ≠ .solidity → request.readBack = request) := by
  refine ⟨(Payload.job_keeps_format hlists).decode_encode, fun request hrequest =>
    ⟨request.keeps_format.decode_encode, AnalysisRequest.readBack_eq_iff, fun htool => ?_⟩⟩
  rw [AnalysisRequest.readBack_eq_iff]
  intro path source hsource
  obtain ⟨added, hadded, -, hsources⟩ := exists_portions_of_load h
  obtain ⟨record, hrecord, rfl⟩ := Payload.exists_record_of_request hrequest hsource
  rw [hsources, Artifacts.get?_sources_gather] at hrecord
  obtain ⟨portion, hportion, hlookup⟩ := List.exists_of_findSome?_eq_some hrecord
  exact (adds_of_mem_portions hadded hportion).legacyAst_ne_null htool
    (Entries.mem_of_lookup_eq_some hlookup)

/-- The document of a compiler that says `null` for the older tree of its source. -/
def nullTree : FileTree :=
  { root := .directory [("out", .directory [
      ("A.json", .ofAscii (layoutDocument "A" "60" ["A"] [("legacyAST", .null)]))])] }

theorem requests_of_nullTree :
    (solidity.load nullTree Compilation.atRoot).toOption.map (fun artifacts =>
      (artifacts.allContracts.map (·.sourceList),
        (Payload.assemble artifacts).requests.map fun request =>
          request.sources.toList.map fun entry =>
            (entry.1, entry.2.legacyAst.map Json.isNull))) =
      some ([["A"]], [[("A", some true)]]) := by
  -- the tree gets a name, so that it is only evaluated at the end
  obtain ⟨tree, htree⟩ : ∃ tree, tree = nullTree := ⟨_, rfl⟩
  rw [← htree]
  unfold BuildTool.load Solidity.load Solidity.documents BuildFile.readAll
  rw [BuildFile.read_eq_readAscii, htree]
  decide +kernel

/-- The project has a request for its only contract, with a tree that is `null`. -/
theorem exists_request_of_nullTree :
    ∃ artifacts, solidity.load nullTree Compilation.atRoot = .ok artifacts ∧
      artifacts.allContracts.map (·.sourceList) = [["A"]] ∧
      ∃ request ∈ (Payload.assemble artifacts).requests, ∃ source,
        request.sources.get? "A" = some source ∧ source.legacyAst = some .null := by
  obtain ⟨artifacts, hload, hview⟩ := toOption_map_eq_some_iff.mp requests_of_nullTree
  obtain ⟨hlists, hrequests⟩ := Prod.mk.inj hview
  obtain ⟨request, _, heq, hsources, -⟩ := List.map_eq_cons_iff.mp hrequests
  obtain ⟨⟨_, source⟩, _, htoList, hhead, -⟩ := List.map_eq_cons_iff.mp hsources
  obtain ⟨rfl, hnull⟩ := Prod.mk.inj hhead
  obtain ⟨value, hvalue, hisNull⟩ := Option.map_eq_some_iff.mp hnull
  refine ⟨artifacts, hload, hlists, request, by rw [heq]; exact List.mem_cons_self, source, ?_, ?_⟩
  · rw [OrderedMap.get?_eq_some_iff, htoList]
    exact List.mem_cons_self
  · cases value <;> first | exact hvalue | cases hisNull

/-- The job is read back, and the request without the tree. -/
theorem nullTree_is_read_back_without_tree :
    ∃ artifacts, solidity.load nullTree Compilation.atRoot = .ok artifacts ∧
      Job.format.decode (Job.format.encode (Payload.assemble artifacts).job) =
        some (Payload.assemble artifacts).job ∧
      ∃ request ∈ (Payload.assemble artifacts).requests,
        AnalysisRequest.format.decode (AnalysisRequest.format.encode request) =
          some request.readBack := by
  obtain ⟨artifacts, hload, hlists, request, hrequest, -⟩ := exists_request_of_nullTree
  have hshort : ∀ contract ∈ artifacts.allContracts,
      contract.sourceList.length ≤ Numeral.wordSize := by
    intro contract hcontract
    have hlist := List.mem_map_of_mem (f := (·.sourceList)) hcontract
    rw [hlists, List.mem_singleton] at hlist
    rw [hlist]
    decide
  obtain ⟨hjob, hrequests⟩ := payload_is_read_back_without_null_trees solidity nullTree
    Compilation.atRoot artifacts hload hshort
  exact ⟨artifacts, hload, hjob, request, hrequest, (hrequests request hrequest).1⟩

/-- What is written for the request is not read as the request. -/
theorem request_of_nullTree_is_not_read_back :
    ∃ artifacts, solidity.load nullTree Compilation.atRoot = .ok artifacts ∧
      ∃ request ∈ (Payload.assemble artifacts).requests,
        AnalysisRequest.format.decode (AnalysisRequest.format.encode request) ≠ some request := by
  obtain ⟨artifacts, hload, -, request, hrequest, source, hsource, hnull⟩ :=
    exists_request_of_nullTree
  refine ⟨artifacts, hload, request, hrequest, fun hdecode => ?_⟩
  have hread : request.readBack = request :=
    Option.some.inj (request.keeps_format.decode_encode.symm.trans hdecode)
  exact AnalysisRequest.readBack_eq_iff.mp hread "A" source hsource hnull

end BuildTool

end ArtifactAtlas
