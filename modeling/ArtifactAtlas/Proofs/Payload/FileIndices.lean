import ArtifactAtlas.Payload.Documents
import ArtifactAtlas.Proofs.Payload.Assembly
import ArtifactAtlas.Proofs.Project.Portions

/-!
# File indices of a job

A contract of a job has a table of its own, but a source has one file index for all of
them.  It is the first place of the source on the list of the first portion, in the order
of loading, that brings it along.  Tables in which it has another place do not fit it.
-/

namespace ArtifactAtlas

/-! ## First places -/

/-- Among the places on a list that are kept for their paths, a path is found at its
first one. -/
theorem SourceList.lookup_places {known : String → Bool} {path : String} (hne : path ≠ "")
    (hknown : known path = true) (list : SourceList) :
    Entries.lookup path ((list.placed.filter fun place => known place.2).map
      fun place => (place.2, some place.1)) = (list.idxOf? path).map some := by
  -- the places of a rest are counted from where it begins
  suffices h : ∀ start, Entries.lookup path
      (((((list.zipIdx start).filter (·.1 ≠ "")).map Prod.swap).filter
        fun place => known place.2).map fun place => (place.2, some place.1)) =
      (list.idxOf? path).map fun index => some (index + start) by
    exact h 0
  induction list with
  | nil => exact fun _ => rfl
  | cons head rest ih =>
      intro start
      rw [List.zipIdx_cons, List.idxOf?_cons]
      by_cases hhead : head = path
      · subst hhead
        simp [Entries.lookup, hne, hknown]
      · have hrest : (rest.idxOf? path).map (fun index => some (index + (start + 1))) =
            ((rest.idxOf? path).map (· + 1)).map fun index => some (index + start) := by
          rw [Option.map_map]
          congr 1
          funext index
          simp only [Function.comp, Option.some.injEq]
          omega
        by_cases hempty : head = ""
        · simpa [hempty, hne.symm, hrest] using ih (start + 1)
        · cases hkept : known head <;>
            simpa [Entries.lookup, hempty, hkept, hhead, hrest] using ih (start + 1)

namespace Portion

/-- The first place on the source list of a portion of a source that it brings along. -/
def place? (portion : Portion) (path : String) : Option Nat :=
  if path ∈ portion.sources.map Prod.fst then portion.sourceList.idxOf? path else Option.none

variable {options : ProjectOptions} {portion : Portion}

theorem LaidOut.place?_eq (h : portion.LaidOut options) (path : String) :
    portion.place? path = (Entries.lookup path portion.sources).bind (·.fileIndex) := by
  rw [place?]
  split
  case isTrue hpath =>
    obtain ⟨known, hplaces⟩ := h.places
    obtain ⟨⟨_, record⟩, hentry, rfl⟩ := List.mem_map.mp hpath
    have hplace := List.mem_map_of_mem (f := fun entry : String × SourceRecord =>
      (entry.1, entry.2.fileIndex)) hentry
    rw [hplaces] at hplace
    obtain ⟨place, hkept, heq⟩ := List.mem_map.mp hplace
    obtain ⟨hmem, hknown⟩ := List.mem_filter.mp hkept
    obtain ⟨rfl, -⟩ := Prod.mk.inj heq
    have hfirst := SourceList.lookup_places (SourceList.mem_placed_iff.mp hmem).2 hknown
      portion.sourceList
    rw [← hplaces, Entries.lookup_map_values _ SourceRecord.fileIndex] at hfirst
    obtain ⟨found, hfound⟩ := Entries.exists_lookup_of_mem hentry
    rw [hfound, Option.map_some] at hfirst
    obtain ⟨index, hindex, heq⟩ := Option.map_eq_some_iff.mp hfirst.symm
    rw [hfound, hindex, heq]
    rfl
  case isFalse hpath =>
    cases hlookup : Entries.lookup path portion.sources with
    | none => rfl
    | some record =>
        exact absurd (List.mem_map_of_mem (Entries.mem_of_lookup_eq_some hlookup)) hpath

end Portion

/-- The file index of a source is the place that the first portion to bring it along has
for it. -/
theorem Artifacts.fileIndex_gather {options : ProjectOptions} {portions : List Portion}
    (h : ∀ portion ∈ portions, portion.LaidOut options) {path : String}
    {record : SourceRecord} (hrecord : (gather portions).sources.get? path = some record) :
    record.fileIndex = portions.findSome? (·.place? path) := by
  rw [get?_sources_gather] at hrecord
  induction portions with
  | nil => cases hrecord
  | cons portion rest ih =>
      rw [List.forall_mem_cons] at h
      rw [List.findSome?_cons] at hrecord ⊢
      rw [h.1.place?_eq]
      cases hlookup : Entries.lookup path portion.sources with
      | none =>
          rw [hlookup] at hrecord
          exact ih h.2 hrecord
      | some found =>
          rw [hlookup] at hrecord
          cases hrecord
          obtain ⟨-, index, hindex, -⟩ := h.1.exists_place (Entries.mem_of_lookup_eq_some hlookup)
          rw [Option.bind_some, hindex]

/-- All contracts that list a path have it in one and the same place. -/
def Artifacts.HasOnePlace (artifacts : Artifacts) (path : String) : Prop :=
  ∃ index, ∀ contract ∈ artifacts.allContracts, ∀ place : Nat,
    contract.sourceList[place]? = some path → place = index

/-! ## Jobs -/

namespace Payload

theorem exists_contract_of_mem_job {artifacts : Artifacts} {compiled : JobContract}
    (h : compiled ∈ (assemble artifacts).job.contracts) :
    ∃ contract ∈ artifacts.allContracts, compiled = jobContract contract.linked := by
  obtain ⟨linked, hlinked, rfl⟩ := List.mem_map.mp h
  rw [contracts_assemble] at hlinked
  obtain ⟨contract, hcontract, rfl⟩ := List.mem_map.mp hlinked
  exact ⟨contract, (List.mem_filter.mp hcontract).1, rfl⟩

theorem getElem?_of_sourcePaths {contract : Contract} {index : Nat} {path : String}
    (h : (jobContract contract).sourcePaths.get? index = some path) :
    contract.sourceList[index]? = some path := by
  rw [jobContract, OrderedMap.get?_ofList] at h
  have hplaced := List.mem_reverse.mp (Entries.mem_of_lookup_eq_some h)
  exact (SourceList.mem_placed_iff.mp hplaced).1

/-- The sources of a job are records of the artifacts. -/
theorem exists_record_of_job {artifacts : Artifacts} {path : String} {source : JobSource}
    (h : (assemble artifacts).job.sources.get? path = some source) :
    ∃ record, artifacts.sources.get? path = some record ∧ source = jobSource record := by
  rw [job, OrderedMap.get?_mapValues, Option.map_eq_some_iff] at h
  obtain ⟨record, hrecord, rfl⟩ := h
  rw [get?_sources_assemble] at hrecord
  split at hrecord
  case isTrue => exact ⟨record, hrecord, rfl⟩
  case isFalse => cases hrecord

end Payload

namespace BuildTool

/--
A job has one file index for each of its sources, which is the first place of the source
on the list of the first portion that brings it along.  So it is the index in the table of
a contract whenever all contracts that list the source have it in one place.
-/
theorem job_sources_have_first_place (tool : BuildTool) (tree : FileTree)
    (options : ProjectOptions) (artifacts : Artifacts)
    (h : tool.load tree options = .ok artifacts) :
    ∃ added, tool.portions tree options = .ok added ∧
      (∀ portion ∈ added, ∀ entry ∈ portion.contracts,
        entry.2.sourceList = portion.sourceList) ∧
      (∀ contract, contract ∈ artifacts.allContracts ↔
        ∃ portion ∈ added, ∃ source, (source, contract) ∈ portion.contracts) ∧
      ∀ compiled ∈ (Payload.assemble artifacts).job.contracts, ∀ index path,
        compiled.sourcePaths.get? index = some path →
        ∀ source, (Payload.assemble artifacts).job.sources.get? path = some source →
          source.fileIndex = added.findSome? (·.place? path) ∧
          (artifacts.HasOnePlace path → source.fileIndex = some index) := by
  obtain ⟨added, hadded, hgroups, hsources⟩ := exists_portions_of_load h
  have hlaidOut : ∀ portion ∈ added, portion.LaidOut options :=
    fun portion hportion => (adds_of_mem_portions hadded hportion).laidOut
  have hcontracts : artifacts.allContracts = (Artifacts.gather added).allContracts := by
    rw [Artifacts.allContracts, hgroups, Artifacts.allContracts]
  refine ⟨added, hadded, fun portion hportion => (hlaidOut portion hportion).shared, ?_, ?_⟩
  · intro contract
    rw [hcontracts]
    exact Artifacts.mem_allContracts_gather
  · intro compiled hcompiled index path hpath source hsource
    obtain ⟨own, hown, rfl⟩ := Payload.exists_contract_of_mem_job hcompiled
    obtain ⟨record, hrecord, rfl⟩ := Payload.exists_record_of_job hsource
    rw [hsources] at hrecord
    refine ⟨Artifacts.fileIndex_gather hlaidOut hrecord, ?_⟩
    rintro ⟨only, honly⟩
    obtain ⟨-, -, place, hplace, contract, hcontract, hlisted⟩ :=
      Artifacts.exists_place_gather hlaidOut hrecord
    rw [← hcontracts] at hcontract
    have hindex := honly own hown index (Payload.getElem?_of_sourcePaths hpath)
    rw [hindex, ← honly contract hcontract place hlisted]
    exact hplace

/-- The document of a run with one contract that lists some sources, and what it says of
each of them. -/
def layoutDocument (name code : String) (listed : List String) (members : List (String × Json)) :
    List Char :=
  let code : Json := .object [("object", .string code), ("sourceMap", .string "0:1:0")]
  let output : Json := .object [("evm", .object [("bytecode", code), ("deployedBytecode", code)])]
  let input (path : String) : String × Json := (path, .object [("content", .string path)])
  Json.compactChars (.object [
    ("input", .object [("sources", .object (listed.map input))]),
    ("output", .object [
      ("sources", .object (listed.map fun path => (path, .object members))),
      ("contracts", .object [(name, .object [(name, output)])])])])

/-- Two runs that list one library in different places.  The first has an interface only. -/
def twoLayouts : FileTree :=
  { root := .directory [("out", .directory [
      ("A.json", .ofAscii (layoutDocument "A" "" ["A", "L"] [])),
      ("B.json", .ofAscii (layoutDocument "B" "60" ["L", "B"] []))])] }

/-- The lists of all contracts, and the tables and file indices of the job. -/
def placesOf (artifacts : Artifacts) :
    List (List String) × List (List (Nat × String)) × List (String × Option Nat) :=
  let job := (Payload.assemble artifacts).job
  (artifacts.allContracts.map (·.sourceList), job.contracts.map (·.sourcePaths.toList),
    job.sources.toList.map fun entry => (entry.1, entry.2.fileIndex))

set_option synthInstance.maxSize 256 in
theorem placesOf_twoLayouts :
    (solidity.load twoLayouts Compilation.atRoot).toOption.map placesOf =
      some ([["A", "L"], ["L", "B"]], [[(0, "L"), (1, "B")]],
        [("B", some 1), ("L", some 1)]) := by
  -- the tree gets a name, so that it is only evaluated at the end
  obtain ⟨tree, htree⟩ : ∃ tree, tree = twoLayouts := ⟨_, rfl⟩
  rw [← htree]
  unfold BuildTool.load Solidity.load Solidity.documents BuildFile.readAll
  rw [BuildFile.read_eq_readAscii, htree]
  decide +kernel

/-- The job has one contract, whose table has both sources, and a file index for each. -/
theorem exists_job_of_twoLayouts :
    ∃ artifacts, solidity.load twoLayouts Compilation.atRoot = .ok artifacts ∧
      artifacts.allContracts.map (·.sourceList) = [["A", "L"], ["L", "B"]] ∧
      ∃ compiled ∈ (Payload.assemble artifacts).job.contracts,
        compiled.sourcePaths.get? 0 = some "L" ∧ compiled.sourcePaths.get? 1 = some "B" ∧
        ∃ b l, (Payload.assemble artifacts).job.sources.get? "B" = some b ∧
          (Payload.assemble artifacts).job.sources.get? "L" = some l ∧
          b.fileIndex = some 1 ∧ l.fileIndex = some 1 := by
  obtain ⟨artifacts, hload, hplaces⟩ := toOption_map_eq_some_iff.mp placesOf_twoLayouts
  obtain ⟨hlists, hrest⟩ := Prod.mk.inj hplaces
  obtain ⟨htables, hindices⟩ := Prod.mk.inj hrest
  obtain ⟨compiled, _, hcontracts, htable, -⟩ := List.map_eq_cons_iff.mp htables
  obtain ⟨⟨_, b⟩, _, hsources, hb, htail⟩ := List.map_eq_cons_iff.mp hindices
  obtain ⟨⟨_, l⟩, _, rfl, hl, -⟩ := List.map_eq_cons_iff.mp htail
  obtain ⟨rfl, hbIndex⟩ := Prod.mk.inj hb
  obtain ⟨rfl, hlIndex⟩ := Prod.mk.inj hl
  refine ⟨artifacts, hload, hlists, compiled, by rw [hcontracts]; exact List.mem_cons_self, ?_⟩
  simp only [OrderedMap.get?_eq_some_iff, htable, hsources]
  exact ⟨by simp, by simp, b, l, by simp, by simp, hbIndex, hlIndex⟩

theorem portions_twoLayouts :
    (portions twoLayouts Compilation.atRoot solidity).toOption.map
      (fun added => added.map (·.place? "L")) = some [some 1, some 0] := by
  obtain ⟨tree, htree⟩ : ∃ tree, tree = twoLayouts := ⟨_, rfl⟩
  rw [← htree]
  unfold BuildTool.portions Solidity.documents BuildFile.readAll
  rw [BuildFile.read_eq_readAscii, htree]
  decide +kernel

/-- The library has its place on the first list; the contract has one place only. -/
theorem twoLayouts_has_first_places :
    ∃ artifacts added, solidity.load twoLayouts Compilation.atRoot = .ok artifacts ∧
      portions twoLayouts Compilation.atRoot solidity = .ok added ∧
      added.map (·.place? "L") = [some 1, some 0] ∧
      ∃ b l, (Payload.assemble artifacts).job.sources.get? "B" = some b ∧
        (Payload.assemble artifacts).job.sources.get? "L" = some l ∧
        artifacts.HasOnePlace "B" ∧ b.fileIndex = some 1 ∧
        l.fileIndex = added.findSome? (·.place? "L") := by
  obtain ⟨artifacts, hload, hlists, compiled, hcompiled, hzero, hone, b, l, hb, hl, -⟩ :=
    exists_job_of_twoLayouts
  obtain ⟨added, hadded, -, -, hjob⟩ :=
    job_sources_have_first_place solidity twoLayouts Compilation.atRoot artifacts hload
  obtain ⟨others, hothers, hplaces⟩ := toOption_map_eq_some_iff.mp portions_twoLayouts
  cases hadded.symm.trans hothers
  have honePlace : artifacts.HasOnePlace "B" := by
    refine ⟨1, fun contract hcontract place hplace => ?_⟩
    have hlist := List.mem_map_of_mem (f := (·.sourceList)) hcontract
    rw [hlists, List.mem_pair] at hlist
    rcases hlist with hlist | hlist <;> rw [hlist] at hplace <;>
      rcases place with _ | _ | place <;> simp_all
  exact ⟨artifacts, added, hload, hadded, hplaces, b, l, hb, hl, honePlace,
    (hjob compiled hcompiled 1 "B" hone b hb).2 honePlace,
    (hjob compiled hcompiled 0 "L" hzero l hl).1⟩

/-- The contract of the second run has the library first, where the job has it second. -/
theorem job_of_twoLayouts_disagrees_with_table :
    ∃ artifacts, solidity.load twoLayouts Compilation.atRoot = .ok artifacts ∧
      ∃ compiled ∈ (Payload.assemble artifacts).job.contracts,
        compiled.sourcePaths.get? 0 = some "L" ∧
        ∃ source, (Payload.assemble artifacts).job.sources.get? "L" = some source ∧
          source.fileIndex = some 1 := by
  obtain ⟨artifacts, hload, -, compiled, hcompiled, hzero, -, _, l, -, hl, -, hindex⟩ :=
    exists_job_of_twoLayouts
  exact ⟨artifacts, hload, compiled, hcompiled, hzero, l, hl, hindex⟩

end BuildTool

end ArtifactAtlas
