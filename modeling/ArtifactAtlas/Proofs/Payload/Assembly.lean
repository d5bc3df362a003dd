import ArtifactAtlas.Proofs.Bytecode.Linking
import ArtifactAtlas.Proofs.OrderedMap

/-!
# What becomes of each contract

Assembling goes through the contracts once.  Each of them is submitted, skipped or
failed, and the three lists together with the pool of sources are known after any
number of contracts: `foldl_add` says what they have grown by.
-/

namespace ArtifactAtlas

namespace Contract

theorem hasContent_linkToZero (code : String) :
    hasContent (Bytecode.linkToZero code) = hasContent code := by
  by_cases hlength : code.length < Bytecode.addressLength
  · rw [Bytecode.linkToZero_eq_self_of_length_lt hlength]
  · -- a long text is neither of the two that hold nothing, and linking keeps the length
    have hlong : ∀ text : String, text.length = code.length → hasContent text = true := by
      intro text htext
      have hne : text ≠ "" ∧ text ≠ "0x" := by
        constructor
        all_goals
          rintro rfl
          rw [← htext] at hlength
          exact hlength (by decide)
      simp [hasContent, hne]
    rw [hlong _ (Bytecode.length_linkToZero code), hlong code rfl]

theorem linked_eq (contract : Contract) :
    contract.linked = { contract with
      bytecode := Bytecode.linkToZero contract.bytecode
      deployedBytecode := Bytecode.linkToZero contract.deployedBytecode } := by
  rw [linked, Bytecode.linkedCode_eq_linkToZero, Bytecode.linkedCode_eq_linkToZero]

theorem isSubmittable_linked (contract : Contract) :
    contract.linked.isSubmittable = contract.isSubmittable := by
  rw [linked_eq]
  simp only [isSubmittable, hasContent_linkToZero]

end Contract

namespace Artifacts

/-- The contracts that have code and whose own source is known. -/
def submitted (artifacts : Artifacts) : List Contract :=
  artifacts.allContracts.filter fun contract =>
    contract.isSubmittable && artifacts.sources.contains contract.mainSource

end Artifacts

namespace Payload

def sourceText? (payload : Payload) (path : String) : Option String :=
  (payload.sources.get? path).map (·.source)

/-- The paths that the source lists of contracts name. -/
def listed (contracts : List Contract) : List String :=
  contracts.flatMap fun contract => contract.sourceList.named

/-! ## One contract -/

variable {known : Sources} {payload : Payload} {contract : Contract}

theorem add_of_not_submittable (h : contract.isSubmittable = false) :
    add known payload contract =
      { payload with skipped := payload.skipped ++ [contract.name] } := by
  simp [add, h]

theorem add_of_known (h : contract.isSubmittable = true)
    (hknown : known.contains contract.mainSource = true) :
    add known payload contract =
      { payload with
        contracts := payload.contracts ++ [contract.linked]
        sources := payload.sources.insertNewAll (knownSources known contract.sourceList) } := by
  simp [add, assembleContract, h, hknown]

theorem add_of_unknown (h : contract.isSubmittable = true)
    (hknown : known.contains contract.mainSource = false) :
    add known payload contract =
      { payload with failed := payload.failed ++ [contract.name] } := by
  simp [add, assembleContract, h, hknown]

/-! ## All contracts -/

theorem foldl_add (known : Sources) (payload : Payload) (contracts : List Contract) :
    contracts.foldl (add known) payload =
      { payload with
        contracts := payload.contracts ++
          (contracts.filter fun contract =>
            contract.isSubmittable && known.contains contract.mainSource).map (·.linked)
        sources := payload.sources.insertNewAll
          ((contracts.filter fun contract =>
            contract.isSubmittable && known.contains contract.mainSource).flatMap fun contract =>
              knownSources known contract.sourceList)
        skipped := payload.skipped ++
          (contracts.filter fun contract => !contract.isSubmittable).map (·.name)
        failed := payload.failed ++
          (contracts.filter fun contract =>
            contract.isSubmittable && !known.contains contract.mainSource).map (·.name) } := by
  induction contracts generalizing payload with
  | nil => simp [OrderedMap.insertNewAll]
  | cons contract rest ih =>
      rw [List.foldl_cons, ih]
      cases hsubmittable : contract.isSubmittable with
      | false => simp [add_of_not_submittable hsubmittable, hsubmittable]
      | true =>
          cases hknown : known.contains contract.mainSource with
          | false => simp [add_of_unknown hsubmittable hknown, hsubmittable, hknown]
          | true =>
              simp [add_of_known hsubmittable hknown, hsubmittable, hknown,
                OrderedMap.insertNewAll, List.foldl_append]

theorem contracts_assemble (artifacts : Artifacts) :
    (assemble artifacts).contracts = artifacts.submitted.map (·.linked) := by
  simp [assemble, foldl_add, empty, Artifacts.submitted]

theorem sources_assemble (artifacts : Artifacts) :
    (assemble artifacts).sources = OrderedMap.empty.insertNewAll
      ((listed artifacts.submitted).filterMap fun path =>
        (artifacts.sources.get? path).map (path, ·)) := by
  rw [listed, List.filterMap_flatMap]
  simp [assemble, foldl_add, empty, Artifacts.submitted, knownSources]

theorem get?_sources_assemble (artifacts : Artifacts) (path : String) :
    (assemble artifacts).sources.get? path =
      if path ∈ listed artifacts.submitted then artifacts.sources.get? path else none := by
  rw [sources_assemble, OrderedMap.get?_insertNewAll, Entries.lookup_filterMap_keys]
  rfl

theorem listed_linked (contracts : List Contract) :
    listed (contracts.map (·.linked)) = listed contracts := by
  rw [listed, List.flatMap_map]
  rfl

theorem listed_contracts_assemble (artifacts : Artifacts) :
    listed (assemble artifacts).contracts = listed artifacts.submitted := by
  rw [contracts_assemble, listed_linked]

theorem skipped_assemble (artifacts : Artifacts) :
    (assemble artifacts).skipped =
      (artifacts.allContracts.filter fun contract => !contract.isSubmittable).map (·.name) := by
  simp [assemble, foldl_add, empty]

theorem failed_assemble (artifacts : Artifacts) :
    (assemble artifacts).failed =
      (artifacts.allContracts.filter fun contract =>
        contract.isSubmittable && !artifacts.sources.contains contract.mainSource).map
        (·.name) := by
  simp [assemble, foldl_add, empty]

/-- No contract is left out of the three lists or comes into two of them. -/
theorem length_assemble (artifacts : Artifacts) :
    (assemble artifacts).contracts.length + (assemble artifacts).skipped.length +
      (assemble artifacts).failed.length = artifacts.allContracts.length := by
  have hcode := List.length_eq_length_filter_add (l := artifacts.allContracts)
    (·.isSubmittable)
  have hknown := List.length_eq_length_filter_add
    (l := artifacts.allContracts.filter (·.isSubmittable))
    fun contract => artifacts.sources.contains contract.mainSource
  have hcomm : ∀ (contract : Contract) (b : Bool),
      (b && contract.isSubmittable) = (contract.isSubmittable && b) :=
    fun contract b => Bool.and_comm b contract.isSubmittable
  simp only [List.filter_filter, hcomm] at hknown
  rw [contracts_assemble, skipped_assemble, failed_assemble, Artifacts.submitted]
  simp only [List.length_map]
  omega

/--
Every contract is submitted, skipped or failed, each list in the order of the
artifacts.  A submitted contract has lost its placeholders and nothing else, and
the sources are the known ones among those that submitted contracts list.
-/
theorem assemble_accounts_for_each_contract (artifacts : Artifacts) :
    (assemble artifacts).contracts = artifacts.submitted.map (fun contract =>
      { contract with
        bytecode := Bytecode.linkToZero contract.bytecode
        deployedBytecode := Bytecode.linkToZero contract.deployedBytecode }) ∧
    (assemble artifacts).skipped =
      (artifacts.allContracts.filter fun contract => !contract.isSubmittable).map (·.name) ∧
    (assemble artifacts).failed =
      (artifacts.allContracts.filter fun contract =>
        contract.isSubmittable && !artifacts.sources.contains contract.mainSource).map
        (·.name) ∧
    (assemble artifacts).contracts.length + (assemble artifacts).skipped.length +
      (assemble artifacts).failed.length = artifacts.allContracts.length ∧
    (∀ contract ∈ (assemble artifacts).contracts,
      Bytecode.hasPlaceholders contract.bytecode = false ∧
      Bytecode.hasPlaceholders contract.deployedBytecode = false ∧
      contract.isSubmittable = true) ∧
    (∀ path, (assemble artifacts).sources.get? path =
      if path ∈ listed (assemble artifacts).contracts then artifacts.sources.get? path
      else none) := by
  refine ⟨?_, skipped_assemble artifacts, failed_assemble artifacts,
    length_assemble artifacts, ?_, ?_⟩
  · simp only [contracts_assemble, Contract.linked_eq]
  · intro contract hcontract
    rw [contracts_assemble, List.mem_map] at hcontract
    obtain ⟨unlinked, hunlinked, rfl⟩ := hcontract
    have hsubmittable := (List.mem_filter.mp hunlinked).2
    rw [Bool.and_eq_true] at hsubmittable
    refine ⟨?_, ?_, ?_⟩
    · rw [Contract.linked_eq]
      exact Bytecode.hasPlaceholders_linkToZero _
    · rw [Contract.linked_eq]
      exact Bytecode.hasPlaceholders_linkToZero _
    · rw [Contract.isSubmittable_linked]
      exact hsubmittable.1
  · intro path
    rw [get?_sources_assemble, listed_contracts_assemble]

/-- A contract with a library to link, one without code and one whose own source is missing. -/
def oneOfEachFate : Artifacts where
  contracts := .ofList [("A.sol", [
    ⟨"A", "60__$aaaaaaaaaaaaaaaaaaaaaaaaaaaaaaaaaa$__", "60", "0:1:0", "0:1:0",
      ["A.sol", "", "B.sol", "D.sol"], "A.sol"⟩,
    ⟨"I", "0x", "0x", "0:1:0", "0:1:0", ["C.sol"], "A.sol"⟩,
    ⟨"M", "60", "60", "0:1:0", "0:1:0", ["C.sol"], "M.sol"⟩])]
  sources := .ofList [
    ("A.sol", ⟨"A.sol", "contract A \x7b\x7d", .null, none, some 0, none⟩),
    ("B.sol", ⟨"B.sol", "contract B \x7b\x7d", .null, none, some 2, none⟩),
    ("C.sol", ⟨"C.sol", "contract C \x7b\x7d", .null, none, some 0, none⟩)]
  solcVersion := none

theorem oneOfEachFate_is_accounted_for :
    (assemble oneOfEachFate).contracts.map (·.name) = ["A"] ∧
    (assemble oneOfEachFate).skipped = ["I"] ∧
    (assemble oneOfEachFate).failed = ["M"] ∧
    (∀ contract ∈ (assemble oneOfEachFate).contracts,
      Bytecode.hasPlaceholders contract.bytecode = false) ∧
    (assemble oneOfEachFate).sources.keys = ["A.sol", "B.sol"] := by
  obtain ⟨hcontracts, hskipped, hfailed, -, hlinked, -⟩ :=
    assemble_accounts_for_each_contract oneOfEachFate
  refine ⟨?_, ?_, ?_, fun contract hcontract => (hlinked contract hcontract).1, ?_⟩
  · rw [hcontracts]
    decide +kernel
  · rw [hskipped]
    decide +kernel
  · rw [hfailed]
    decide +kernel
  · decide +kernel

end Payload

end ArtifactAtlas
