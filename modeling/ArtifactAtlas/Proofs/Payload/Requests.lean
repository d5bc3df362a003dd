import ArtifactAtlas.Payload.Documents
import ArtifactAtlas.Proofs.Payload.Assembly

/-!
# The sources of a request

A request carries the sources that the list of its contract names, as far as the
payload has them.  The main source is no exception: it is looked for among the
known sources when the contract is assembled, but it comes along only if it is on
the list.
-/

namespace ArtifactAtlas

namespace Payload

theorem get?_sources_request (payload : Payload) (contract : Contract) (path : String) :
    (payload.request contract).sources.get? path =
      if path ∈ contract.sourceList then (payload.sources.get? path).map requestSource
      else none := by
  have h := Entries.lookup_filterMap_keys
    (fun path => (payload.sources.get? path).map requestSource) contract.sourceList.reverse path
  simp only [Option.map_map, List.filterMap_reverse, List.mem_reverse] at h
  rw [request, OrderedMap.get?_ofList]
  exact h

theorem mem_requests_assemble {artifacts : Artifacts} {r : AnalysisRequest} :
    r ∈ (assemble artifacts).requests ↔
      ∃ contract ∈ artifacts.submitted,
        (assemble artifacts).request contract.linked = r := by
  rw [requests, contracts_assemble, List.map_map, List.mem_map]
  rfl

theorem mem_listed_of_mem_named {contracts : List Contract} {contract : Contract}
    (hcontract : contract ∈ contracts) {path : String} (h : path ∈ contract.sourceList.named) :
    path ∈ listed contracts :=
  List.mem_flatMap.mpr ⟨contract, hcontract, h⟩

theorem ne_empty_of_mem_listed {contracts : List Contract} {path : String}
    (h : path ∈ listed contracts) : path ≠ "" := by
  obtain ⟨contract, -, hnamed⟩ := List.mem_flatMap.mp h
  simpa using (List.mem_filter.mp hnamed).2

theorem contains_sources_request {artifacts : Artifacts} {contract : Contract}
    (h : contract ∈ artifacts.submitted) {path : String}
    (hknown : artifacts.sources.contains path = true) :
    ((assemble artifacts).request contract.linked).sources.contains path = true ↔
      path ∈ contract.sourceList.named := by
  rw [OrderedMap.contains, get?_sources_request, get?_sources_assemble]
  have hlist : contract.linked.sourceList = contract.sourceList := rfl
  rw [hlist]
  constructor
  · intro hsome
    split at hsome
    case isTrue hmem =>
      rw [Option.isSome_map] at hsome
      split at hsome
      case isTrue hlisted =>
        exact List.mem_filter.mpr ⟨hmem, by simpa using ne_empty_of_mem_listed hlisted⟩
      case isFalse => cases hsome
    case isFalse => cases hsome
  · intro hnamed
    rw [if_pos (List.mem_filter.mp hnamed).1, if_pos (mem_listed_of_mem_named h hnamed),
      Option.isSome_map]
    exact hknown

/--
A request has its main source exactly if its source list names it.  What is made
sure for every request is only that its main source is known: contracts of which
it is not are the ones that fail.
-/
theorem request_has_main_source_iff_named (artifacts : Artifacts) :
    (∀ r ∈ (assemble artifacts).requests,
      artifacts.sources.contains r.mainSource = true ∧
      (r.sources.contains r.mainSource = true ↔ r.mainSource ∈ r.sourceList.named)) ∧
    (assemble artifacts).failed =
      (artifacts.allContracts.filter fun contract =>
        contract.isSubmittable && !artifacts.sources.contains contract.mainSource).map
        (·.name) := by
  refine ⟨?_, failed_assemble artifacts⟩
  intro r hr
  obtain ⟨contract, hcontract, rfl⟩ := mem_requests_assemble.mp hr
  have hknown := (List.mem_filter.mp hcontract).2
  rw [Bool.and_eq_true] at hknown
  exact ⟨hknown.2, contains_sources_request hcontract hknown.2⟩

/-- A contract whose own source is on no list but that of an interface. -/
def unlistedMain : Artifacts where
  contracts := .ofList [
    ("contracts/A.sol", [⟨"A", "0x6080", "0x6080", "0:13:0", "0:13:0",
      ["contracts/B.sol"], "contracts/A.sol"⟩]),
    ("contracts/B.sol", [⟨"B", "0x", "0x", "0:13:0", "0:13:0",
      ["contracts/A.sol", "contracts/B.sol"], "contracts/B.sol"⟩])]
  sources := .ofList [
    ("contracts/A.sol", ⟨"contracts/A.sol", "contract A \x7b\x7d", .null, none, some 0, none⟩),
    ("contracts/B.sol", ⟨"contracts/B.sol", "interface B \x7b\x7d", .null, none, some 0, none⟩)]
  solcVersion := some "0.6.12"

/-- The interface is skipped, and the contract is submitted without its main source. -/
theorem unlistedMain_is_requested_without_main_source :
    unlistedMain.sources.contains "contracts/A.sol" = true ∧
    (assemble unlistedMain).skipped = ["B"] ∧
    (assemble unlistedMain).failed = [] ∧
    (assemble unlistedMain).requests.map (·.contractName) = ["A"] ∧
    (∃ r ∈ (assemble unlistedMain).requests,
      r.mainSource = "contracts/A.sol" ∧ r.sources.keys = ["contracts/B.sol"] ∧
      r.sources.contains r.mainSource = false) ∧
    (assemble unlistedMain).sources.contains "contracts/A.sol" = false := by
  decide +kernel

end Payload

end ArtifactAtlas
