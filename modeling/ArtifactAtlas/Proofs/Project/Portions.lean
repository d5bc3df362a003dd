import ArtifactAtlas.Project.Load
import ArtifactAtlas.Proofs.Artifact.Gathering
import ArtifactAtlas.Proofs.Artifact.Steps
import ArtifactAtlas.Proofs.OrderedMap
import ArtifactAtlas.Proofs.Project.Compilation

/-!
# What build files add

Every tool loads a project portion by portion.  The contracts of a portion share one
source list, and its sources are what that list names as far as there are records.  So
whatever is loaded stands under its own path, and the file index of a source is a place
where a loaded contract lists it.
-/

namespace ArtifactAtlas

/-! ## Places on a list -/

namespace SourceList

/-- What is found for places comes in their order, if it is known by the path alone
whether anything is found. -/
theorem map_filterMap_places {γ : Type} (found? : Nat × String → Option γ)
    (known : String → Bool) (hknown : ∀ place, (found? place).isSome = known place.2)
    (view : γ → String × Option Nat)
    (hview : ∀ place found, found? place = some found → view found = (place.2, some place.1))
    (places : List (Nat × String)) :
    (places.filterMap found?).map view =
      (places.filter fun place => known place.2).map fun place => (place.2, some place.1) := by
  induction places with
  | nil => rfl
  | cons place rest ih =>
      rw [List.filterMap_cons, List.filter_cons, ← hknown place]
      cases hfound : found? place with
      | none => exact ih
      | some found =>
          rw [Option.isSome_some, if_pos rfl, List.map_cons, List.map_cons, ih,
            hview place found hfound]

end SourceList

/-! ## Portions -/

namespace Portion

/-- The source list of a portion, which is that of its first contract. -/
def sourceList (portion : Portion) : SourceList :=
  ((portion.contracts.head?).map (·.2.sourceList)).getD []

/-- The contracts of a portion are under their own sources, which are included, and have
one source list.  The sources are those of that list, in order, for which there is a
record; each is under its own path and has its place as file index. -/
structure LaidOut (options : ProjectOptions) (portion : Portion) : Prop where
  own : ∀ entry ∈ portion.contracts,
    options.includes entry.1 = true ∧ entry.2.mainSource = entry.1
  shared : ∀ entry ∈ portion.contracts, entry.2.sourceList = portion.sourceList
  paths : ∀ entry ∈ portion.sources, entry.2.path = entry.1
  places : ∃ known : String → Bool,
    portion.sources.map (fun entry => (entry.1, entry.2.fileIndex)) =
      (portion.sourceList.placed.filter fun place => known place.2).map
        fun place => (place.2, some place.1)

theorem laidOut_none (options : ProjectOptions) : LaidOut options none where
  own := List.forall_mem_nil _
  shared := List.forall_mem_nil _
  paths := List.forall_mem_nil _
  places := ⟨fun _ => true, rfl⟩

variable {options : ProjectOptions} {portion : Portion}

theorem LaidOut.exists_place (h : portion.LaidOut options) {path : String}
    {record : SourceRecord} (hentry : (path, record) ∈ portion.sources) :
    path ≠ "" ∧ ∃ index, record.fileIndex = some index ∧
      portion.sourceList[index]? = some path := by
  obtain ⟨known, hplaces⟩ := h.places
  have hplace : (path, record.fileIndex) ∈
      portion.sources.map fun entry => (entry.1, entry.2.fileIndex) :=
    List.mem_map.mpr ⟨(path, record), hentry, rfl⟩
  rw [hplaces, List.mem_map] at hplace
  obtain ⟨⟨index, named⟩, hmem, heq⟩ := hplace
  obtain ⟨rfl, hindex⟩ := Prod.mk.inj heq
  obtain ⟨hget, hne⟩ := SourceList.mem_placed_iff.mp (List.mem_filter.mp hmem).1
  exact ⟨hne, index, hindex.symm, hget⟩

theorem exists_contract_of_sourceList {index : Nat} {path : String}
    (h : portion.sourceList[index]? = some path) :
    ∃ entry ∈ portion.contracts, entry.2.sourceList[index]? = some path := by
  cases hcontracts : portion.contracts with
  | nil =>
      rw [sourceList, hcontracts] at h
      cases h
  | cons entry rest =>
      rw [sourceList, hcontracts] at h
      exact ⟨entry, List.mem_cons_self, h⟩

end Portion

/-- What is gathered from portions that are laid out has a place for each source. -/
theorem Artifacts.exists_place_gather {options : ProjectOptions} {portions : List Portion}
    (h : ∀ portion ∈ portions, portion.LaidOut options) {path : String}
    {record : SourceRecord} (hrecord : (gather portions).sources.get? path = some record) :
    path ≠ "" ∧ record.path = path ∧ ∃ index, record.fileIndex = some index ∧
      ∃ contract ∈ (gather portions).allContracts, contract.sourceList[index]? = some path := by
  rw [get?_sources_gather] at hrecord
  obtain ⟨portion, hportion, hlookup⟩ := List.exists_of_findSome?_eq_some hrecord
  have hentry := Entries.mem_of_lookup_eq_some hlookup
  obtain ⟨hne, index, hindex, hplace⟩ := (h portion hportion).exists_place hentry
  obtain ⟨⟨source, contract⟩, hcontract, hlisted⟩ :=
    Portion.exists_contract_of_sourceList hplace
  exact ⟨hne, (h portion hportion).paths (path, record) hentry, index, hindex, contract,
    mem_allContracts_gather.mpr ⟨portion, hportion, source, hcontract⟩, hlisted⟩

/-! ## One file for each contract -/

variable {tree : FileTree} {options : ProjectOptions}

/-- The files that declare included sources, with these, in the order of loading. -/
def ProjectOptions.includedFiles (options : ProjectOptions) (index : BuildIndex) :
    List (String × BuildFile) :=
  (index.groups.toList.filter fun group => options.includes group.1).flatMap
    fun group => group.2.map (group.1, ·)

theorem ProjectOptions.includes_of_mem_includedFiles {index : BuildIndex}
    {item : String × BuildFile} (h : item ∈ options.includedFiles index) :
    options.includes item.1 = true :=
  (OrderedMap.mem_flatMap_groups.mp h).1

/-- Whether a record is that of a source with a place on a list, from the file that
declares the source. -/
structure SourceRecord.IsDeclared (declared : Nat × String × BuildFile)
    (entry : String × SourceRecord) : Prop where
  key : entry.1 = declared.2.1
  path : entry.2.path = declared.2.1
  fileIndex : entry.2.fileIndex = some declared.1
  legacyAst : entry.2.legacyAst = declared.2.2.legacyAst?

namespace Portion

/-- Whether a portion has one contract, and the records of the sources on its list that
some file declares. -/
def IsDeclared (index : BuildIndex) (source : String) (portion : Portion) : Prop :=
  ∃ contract, portion.contracts = [(source, contract)] ∧ contract.mainSource = source ∧
    List.Forall₂ SourceRecord.IsDeclared
      (contract.sourceList.placed.filterMap fun place =>
        (index.first? place.2).map (place.1, place.2, ·)) portion.sources

variable {index : BuildIndex} {source : String} {portion : Portion}

theorem IsDeclared.laidOut (h : portion.IsDeclared index source)
    (hincluded : options.includes source = true) : portion.LaidOut options := by
  obtain ⟨contract, hcontracts, hmain, hsources⟩ := h
  have hlist : portion.sourceList = contract.sourceList := by
    rw [sourceList, hcontracts]
    rfl
  refine ⟨?_, ?_, fun entry hentry => ?_, fun path => (index.first? path).isSome, ?_⟩
  · rw [hcontracts]
    exact List.forall_mem_singleton.mpr ⟨hincluded, hmain⟩
  · rw [hcontracts]
    exact List.forall_mem_singleton.mpr hlist.symm
  · obtain ⟨declared, -, hdeclared⟩ := exists_of_mem_of_forall₂ hsources hentry
    rw [hdeclared.path, hdeclared.key]
  · have hplaces := SourceList.map_filterMap_places
      (fun place => (index.first? place.2).map (place.1, place.2, ·))
      (fun path => (index.first? path).isSome) (fun place => by simp)
      (fun declared => (declared.2.1, some declared.1))
      (fun place declared hfound => by
        obtain ⟨origin, -, rfl⟩ := Option.map_eq_some_iff.mp hfound
        rfl)
      contract.sourceList.placed
    have hviews := map_eq_map_of_forall₂
      (f := fun declared : Nat × String × BuildFile => (declared.2.1, some declared.1))
      (g := fun entry : String × SourceRecord => (entry.1, entry.2.fileIndex))
      (hsources.imp fun declared entry hentry => by rw [hentry.key, hentry.fileIndex])
    rw [hlist]
    exact hviews.symm.trans hplaces

theorem IsDeclared.exists_origin (h : portion.IsDeclared index source)
    {entry : String × SourceRecord} (hentry : entry ∈ portion.sources) :
    ∃ origin : BuildFile, entry.2.legacyAst = origin.legacyAst? := by
  obtain ⟨_, -, -, hsources⟩ := h
  obtain ⟨declared, -, hdeclared⟩ := exists_of_mem_of_forall₂ hsources hentry
  exact ⟨declared.2.2, hdeclared.legacyAst⟩

end Portion

namespace Truffle

theorem isDeclared_of_record {origin : BuildFile} {place : Nat} {path : String}
    {result : SourceRecord} (h : record origin place path = .ok result) :
    SourceRecord.IsDeclared (place, path, origin) (path, result) := by
  simp only [record, bind_eq_ok_iff, pure_eq_ok_iff] at h
  obtain ⟨_, -, _, -, rfl⟩ := h
  exact ⟨rfl, rfl, rfl, rfl⟩

/-- A file adds its contract, or nothing if an import stands for no source. -/
theorem isDeclared_of_portion {index : BuildIndex} {graph : ImportGraph} {source : String}
    {file : BuildFile} {added : Portion} (h : portion index graph source file = .ok added) :
    added = .none ∨ added.IsDeclared index source := by
  simp only [portion] at h
  split at h
  case isTrue => exact .inl (pure_eq_ok_iff.mp h).symm
  case isFalse =>
    simp only [bind_eq_ok_iff, pure_eq_ok_iff] at h
    obtain ⟨arrangement, -, result, hresult, sources, hsources, rfl⟩ := h
    simp only [contract, bind_eq_ok_iff, pure_eq_ok_iff] at hresult
    obtain ⟨_, -, _, -, _, -, _, -, _, -, rfl⟩ := hresult
    simp only [records, mapM_eq_ok_iff] at hsources
    refine .inr ⟨_, rfl, rfl, hsources.imp fun declared entry hentry => ?_⟩
    obtain ⟨result, hrecord, heq⟩ := bind_eq_ok_iff.mp hentry
    cases pure_eq_ok_iff.mp heq
    exact isDeclared_of_record hrecord

end Truffle

namespace Brownie

theorem isDeclared_of_record {origin : BuildFile} {place : Nat} {path : String}
    {result : SourceRecord} (h : record tree options origin place path = .ok result) :
    SourceRecord.IsDeclared (place, path, origin) (path, result) := by
  simp only [record, bind_eq_ok_iff, pure_eq_ok_iff] at h
  obtain ⟨_, -, rfl⟩ := h
  exact ⟨rfl, rfl, rfl, rfl⟩

theorem isDeclared_of_portion {index : BuildIndex} {source : String} {file : BuildFile}
    {added : Portion} (h : portion tree options index source file = .ok added) :
    added.IsDeclared index source := by
  simp only [portion, bind_eq_ok_iff, pure_eq_ok_iff] at h
  obtain ⟨result, hresult, sources, hsources, rfl⟩ := h
  simp only [contract, bind_eq_ok_iff, pure_eq_ok_iff] at hresult
  obtain ⟨_, -, _, -, _, -, _, -, _, -, _, -, rfl⟩ := hresult
  simp only [records, mapM_eq_ok_iff] at hsources
  refine ⟨_, rfl, rfl, hsources.imp fun declared entry hentry => ?_⟩
  obtain ⟨result, hrecord, heq⟩ := bind_eq_ok_iff.mp hentry
  cases pure_eq_ok_iff.mp heq
  exact isDeclared_of_record hrecord

end Brownie

/-! ## One file for a whole compilation -/

/-- A portion is laid out if its sources are the records that its source list is given,
where the path alone decides whether there is a record. -/
theorem Portion.laidOut_of_records {contracts : List (String × Contract)}
    {list : SourceList} {record? : Nat → String → Option SourceRecord}
    {text? : String → Option String} {solcVersion : Option String}
    (hne : contracts ≠ []) (hown : ∀ entry ∈ contracts,
      options.includes entry.1 = true ∧ entry.2.mainSource = entry.1)
    (hshared : ∀ entry ∈ contracts, entry.2.sourceList = list)
    (hrecord : ∀ index path result, record? index path = some result →
      result.path = path ∧ result.fileIndex = some index)
    (htext : ∀ index path, (record? index path).map (·.source) = text? path) :
    LaidOut options ⟨contracts, CompilerOutput.records list record?, solcVersion⟩ := by
  have hlist : sourceList ⟨contracts, CompilerOutput.records list record?, solcVersion⟩ = list := by
    obtain ⟨entry, rest, rfl⟩ := List.exists_cons_of_ne_nil hne
    exact hshared entry List.mem_cons_self
  refine ⟨hown, by rwa [hlist], ?_, fun path => (text? path).isSome, ?_⟩
  · intro entry hentry
    obtain ⟨⟨index, path⟩, -, hfound⟩ := List.mem_filterMap.mp hentry
    obtain ⟨result, hresult, rfl⟩ := Option.map_eq_some_iff.mp hfound
    exact (hrecord index path result hresult).1
  · rw [hlist]
    refine SourceList.map_filterMap_places
      (fun place => (record? place.1 place.2).map (place.2, ·))
      (fun path => (text? path).isSome) ?_
      (fun entry : String × SourceRecord => (entry.1, entry.2.fileIndex)) ?_ list.placed
    · intro place
      rw [← htext place.1, Option.isSome_map, Option.isSome_map]
    · intro place entry hfound
      obtain ⟨result, hresult, rfl⟩ := Option.map_eq_some_iff.mp hfound
      rw [(hrecord _ _ _ hresult).2]

theorem CompilerOutput.mainSource_of_contract {origin : Path} {name source : String}
    {data : Json} {sourceList : SourceList} {result : Contract}
    (h : contract origin name source data sourceList = .ok result) :
    result.mainSource = source := by
  simp only [contract, bind_eq_ok_iff, pure_eq_ok_iff] at h
  obtain ⟨_, -, _, -, _, -, _, -, rfl⟩ := h
  rfl

namespace Hardhat

theorem BuildInfo.mainSource_of_contract {info : BuildInfo} {source name : String}
    {result : Contract} (h : info.contract source name = .ok result) :
    result.mainSource = source := by
  rw [BuildInfo.contract] at h
  split at h
  case h_1 => exact CompilerOutput.mainSource_of_contract h
  case h_2 => cases h

theorem laidOut_of_portion {source : String} {artifact : BuildFile} {added : Portion}
    (hincluded : options.includes source = true)
    (h : portion tree options source artifact = .ok added) : added.LaidOut options := by
  simp only [portion, bind_eq_ok_iff, pure_eq_ok_iff] at h
  obtain ⟨_, -, _, -, info, -, result, hresult, rfl⟩ := h
  refine Portion.laidOut_of_records (List.cons_ne_nil _ _)
    (List.forall_mem_singleton.mpr ⟨hincluded, info.mainSource_of_contract hresult⟩)
    (List.forall_mem_singleton.mpr (info.sourceList_of_contract hresult)) ?_
    (info.map_source_record? tree options)
  intro index path record hrecord
  simp only [BuildInfo.record?, Option.bind_eq_bind, Option.bind_eq_some_iff, Option.pure_def,
    Option.some.injEq] at hrecord
  obtain ⟨_, -, rfl⟩ := hrecord
  exact ⟨rfl, rfl⟩

end Hardhat

namespace Solidity

theorem own_of_mem_contracts {origin : Path} {sourceList : SourceList}
    {bySource : List (String × Json)} {results : List (String × Contract)}
    (h : contracts options origin sourceList bySource = .ok results)
    {result : String × Contract} (hresult : result ∈ results) :
    options.includes result.1 = true ∧ result.2.mainSource = result.1 := by
  simp only [contracts, mapM_eq_ok_iff] at h
  obtain ⟨⟨source, name, data⟩, hitem, hstep⟩ := exists_of_mem_of_forall₂ h hresult
  obtain ⟨⟨_, byName⟩, hsource, hnamed⟩ := List.mem_flatMap.mp hitem
  obtain ⟨_, -, heq⟩ := List.mem_map.mp hnamed
  cases heq
  obtain ⟨contract, hcontract, hpair⟩ := bind_eq_ok_iff.mp hstep
  cases pure_eq_ok_iff.mp hpair
  exact ⟨(List.mem_filter.mp hsource).2, CompilerOutput.mainSource_of_contract hcontract⟩

theorem laidOut_of_portion {document : BuildFile} {added : Portion}
    (h : portion tree options document = .ok added) : added.LaidOut options := by
  cases hbySource : ((outputOf document.data).get? "contracts").bind Json.object? with
  | none =>
      simp only [portion, hbySource] at h
      cases h
  | some bySource =>
      simp only [portion, hbySource, bind_eq_ok_iff] at h
      obtain ⟨sourceList, -, results, hresults, h⟩ := h
      cases results with
      | nil =>
          cases pure_eq_ok_iff.mp h
          exact Portion.laidOut_none options
      | cons first rest =>
          cases pure_eq_ok_iff.mp h
          refine Portion.laidOut_of_records (List.cons_ne_nil _ _)
            (fun _ => own_of_mem_contracts hresults)
            (fun _ => sourceList_of_mem_contracts hresults) ?_
            (map_source_record? tree options document.data _)
          intro index path record hrecord
          simp only [record?, Option.bind_eq_bind, Option.bind_eq_some_iff, Option.pure_def,
            Option.some.injEq] at hrecord
          obtain ⟨_, -, rfl⟩ := hrecord
          exact ⟨rfl, rfl⟩

end Solidity

/-! ## Every tool -/

namespace BuildTool

/-- What the build files of a project add, in the order of loading. -/
def portions (tree : FileTree) (options : ProjectOptions) :
    BuildTool → Except Failure (List Portion)
  | solidity => do
      (← Solidity.documents tree (options.outputOf solidity)).mapM
        (Solidity.portion tree options)
  | truffle => do
      let index ← BuildIndex.load tree (options.outputOf truffle) Truffle.sourceKey fun _ => false
      let graph := ImportGraph.ofIndex index Truffle.sourceKey
      (options.includedFiles index).mapM fun (source, file) =>
        Truffle.portion index graph source file
  | hardhat => do
      let index ← BuildIndex.ofFiles "sourceName"
        (← Hardhat.artifactFiles tree (options.outputOf hardhat))
      (options.includedFiles index).mapM fun (source, artifact) =>
        Hardhat.portion tree options source artifact
  | brownie => do
      let index ← BuildIndex.load tree (options.outputOf brownie) Brownie.sourceKey fun _ => false
      (options.includedFiles index).mapM fun (source, file) =>
        Brownie.portion tree options index source file

/-- To load a project is to gather its portions, the version apart. -/
theorem exists_portions_of_load {tool : BuildTool} {artifacts : Artifacts}
    (h : tool.load tree options = .ok artifacts) :
    ∃ added, portions tree options tool = .ok added ∧
      artifacts.contracts = (Artifacts.gather added).contracts ∧
      artifacts.sources = (Artifacts.gather added).sources := by
  cases tool with
  | solidity =>
      simp only [load, Solidity.load, bind_eq_ok_iff, pure_eq_ok_iff] at h
      obtain ⟨documents, hdocuments, added, hadded, rfl⟩ := h
      exact ⟨added, bind_eq_ok_iff.mpr ⟨documents, hdocuments, hadded⟩, rfl, rfl⟩
  | truffle =>
      simp only [load, Truffle.load, Truffle.ofIndex, bind_eq_ok_iff, pure_eq_ok_iff] at h
      obtain ⟨index, hindex, _, ⟨groups, hgroups, rfl⟩, rfl⟩ := h
      have hsteps := forall₂_of_mapM_groups _ hgroups
      exact ⟨groups.flatten, bind_eq_ok_iff.mpr ⟨index, hindex, mapM_eq_ok_iff.mpr hsteps⟩,
        rfl, rfl⟩
  | hardhat =>
      simp only [load, Hardhat.load, bind_eq_ok_iff, pure_eq_ok_iff] at h
      obtain ⟨files, hfiles, index, hindex, groups, hgroups, rfl⟩ := h
      have hsteps := forall₂_of_mapM_groups _ hgroups
      exact ⟨groups.flatten, bind_eq_ok_iff.mpr ⟨files, hfiles,
        bind_eq_ok_iff.mpr ⟨index, hindex, mapM_eq_ok_iff.mpr hsteps⟩⟩, rfl, rfl⟩
  | brownie =>
      simp only [load, Brownie.load, bind_eq_ok_iff, pure_eq_ok_iff] at h
      obtain ⟨index, hindex, groups, hgroups, rfl⟩ := h
      have hsteps := forall₂_of_mapM_groups _ hgroups
      exact ⟨groups.flatten, bind_eq_ok_iff.mpr ⟨index, hindex, mapM_eq_ok_iff.mpr hsteps⟩,
        rfl, rfl⟩

/-- What one build file adds under each tool. -/
inductive Adds (tree : FileTree) (options : ProjectOptions) : BuildTool → Portion → Prop
  | solidity {document : BuildFile} {added : Portion}
      (h : Solidity.portion tree options document = .ok added) : Adds tree options solidity added
  | truffle {index : BuildIndex} {graph : ImportGraph} {source : String} {file : BuildFile}
      {added : Portion} (hincluded : options.includes source = true)
      (h : Truffle.portion index graph source file = .ok added) : Adds tree options truffle added
  | hardhat {source : String} {artifact : BuildFile} {added : Portion}
      (hincluded : options.includes source = true)
      (h : Hardhat.portion tree options source artifact = .ok added) :
      Adds tree options hardhat added
  | brownie {index : BuildIndex} {source : String} {file : BuildFile} {added : Portion}
      (hincluded : options.includes source = true)
      (h : Brownie.portion tree options index source file = .ok added) :
      Adds tree options brownie added

theorem adds_of_mem_portions {tool : BuildTool} {added : List Portion}
    (h : portions tree options tool = .ok added) {portion : Portion}
    (hportion : portion ∈ added) : Adds tree options tool portion := by
  cases tool with
  | solidity =>
      obtain ⟨documents, -, hsteps⟩ := bind_eq_ok_iff.mp h
      obtain ⟨document, -, hstep⟩ := exists_of_mem_of_forall₂ (mapM_eq_ok_iff.mp hsteps) hportion
      exact .solidity hstep
  | truffle =>
      obtain ⟨index, -, hsteps⟩ := bind_eq_ok_iff.mp h
      obtain ⟨item, hitem, hstep⟩ := exists_of_mem_of_forall₂ (mapM_eq_ok_iff.mp hsteps) hportion
      exact .truffle (options.includes_of_mem_includedFiles hitem) hstep
  | hardhat =>
      obtain ⟨files, -, h⟩ := bind_eq_ok_iff.mp h
      obtain ⟨index, -, hsteps⟩ := bind_eq_ok_iff.mp h
      obtain ⟨item, hitem, hstep⟩ := exists_of_mem_of_forall₂ (mapM_eq_ok_iff.mp hsteps) hportion
      exact .hardhat (options.includes_of_mem_includedFiles hitem) hstep
  | brownie =>
      obtain ⟨index, -, hsteps⟩ := bind_eq_ok_iff.mp h
      obtain ⟨item, hitem, hstep⟩ := exists_of_mem_of_forall₂ (mapM_eq_ok_iff.mp hsteps) hportion
      exact .brownie (options.includes_of_mem_includedFiles hitem) hstep

theorem Adds.laidOut {tool : BuildTool} {portion : Portion} (h : Adds tree options tool portion) :
    portion.LaidOut options := by
  cases h with
  | solidity h => exact Solidity.laidOut_of_portion h
  | truffle hincluded h =>
      obtain rfl | hdeclared := Truffle.isDeclared_of_portion h
      · exact Portion.laidOut_none options
      · exact hdeclared.laidOut hincluded
  | hardhat hincluded h => exact Hardhat.laidOut_of_portion hincluded h
  | brownie hincluded h => exact (Brownie.isDeclared_of_portion h).laidOut hincluded

/--
Whatever is loaded is where it belongs: a contract is under its own source, which is
included, and a source is under its own path, with a place where a loaded contract lists
it as file index.
-/
theorem loaded_entries_are_under_their_own_paths (tool : BuildTool) (tree : FileTree)
    (options : ProjectOptions) (artifacts : Artifacts)
    (h : tool.load tree options = .ok artifacts) :
    (∀ source contracts, artifacts.contracts.get? source = some contracts →
      options.includes source = true ∧ contracts ≠ [] ∧
        ∀ contract ∈ contracts, contract.mainSource = source) ∧
    ∀ path record, artifacts.sources.get? path = some record →
      path ≠ "" ∧ record.path = path ∧ ∃ index, record.fileIndex = some index ∧
        ∃ contract ∈ artifacts.allContracts, contract.sourceList[index]? = some path := by
  obtain ⟨added, hadded, hgroups, hsources⟩ := exists_portions_of_load h
  have hlaidOut : ∀ portion ∈ added, portion.LaidOut options :=
    fun portion hportion => (adds_of_mem_portions hadded hportion).laidOut
  constructor
  · intro source contracts hcontracts
    rw [hgroups] at hcontracts
    obtain ⟨hne, hentries⟩ := Artifacts.mem_group_gather hcontracts
    have hown : ∀ contract ∈ contracts,
        options.includes source = true ∧ contract.mainSource = source := by
      intro contract hcontract
      obtain ⟨portion, hportion, hentry⟩ := hentries contract hcontract
      exact (hlaidOut portion hportion).own (source, contract) hentry
    obtain ⟨first, hfirst⟩ := List.exists_mem_of_ne_nil contracts hne
    exact ⟨(hown first hfirst).1, hne, fun contract hcontract => (hown contract hcontract).2⟩
  · intro path record hrecord
    rw [hsources] at hrecord
    rw [Artifacts.allContracts, hgroups]
    exact Artifacts.exists_place_gather hlaidOut hrecord

theorem entries_of_twoVersions :
    (hardhat.load Compilation.twoVersions Compilation.atRoot).toOption.map (fun artifacts =>
      (artifacts.contracts.keys,
        artifacts.sources.toList.map fun entry => (entry.1, entry.2.fileIndex))) =
      some (["A", "B"], [("L", some 1)]) := by
  -- the tree gets a name, so that it is only evaluated at the end
  obtain ⟨tree, htree⟩ : ∃ tree, tree = Compilation.twoVersions := ⟨_, rfl⟩
  rw [← htree]
  unfold BuildTool.load Hardhat.load Hardhat.artifactFiles Hardhat.portion Hardhat.BuildInfo.read
    Hardhat.buildInfoPath BuildFile.readAll
  rw [BuildFile.read_eq_readAscii, htree]
  decide +kernel

/-- The library of two runs has its place on the lists of both. -/
theorem twoVersions_is_under_its_own_paths :
    ∃ artifacts, hardhat.load Compilation.twoVersions Compilation.atRoot = .ok artifacts ∧
      artifacts.contracts.keys = ["A", "B"] ∧
      (∀ source contracts, artifacts.contracts.get? source = some contracts →
        ∀ contract ∈ contracts, contract.mainSource = source) ∧
      ∃ record, artifacts.sources.get? "L" = some record ∧ record.path = "L" ∧
        record.fileIndex = some 1 ∧
        ∃ contract ∈ artifacts.allContracts, contract.sourceList[1]? = some "L" := by
  obtain ⟨artifacts, hload, hentries⟩ := toOption_map_eq_some_iff.mp entries_of_twoVersions
  obtain ⟨hkeys, hsources⟩ := Prod.mk.inj hentries
  obtain ⟨hgroups, hrecords⟩ :=
    loaded_entries_are_under_their_own_paths hardhat Compilation.twoVersions Compilation.atRoot
      artifacts hload
  obtain ⟨⟨_, record⟩, _, htoList, hhead, -⟩ := List.map_eq_cons_iff.mp hsources
  obtain ⟨rfl, hindex⟩ := Prod.mk.inj hhead
  have hrecord : artifacts.sources.get? "L" = some record := by
    rw [OrderedMap.get?_eq_some_iff, htoList]
    exact List.mem_cons_self
  obtain ⟨-, hpath, index, heq, hcontract⟩ := hrecords "L" record hrecord
  obtain rfl : index = 1 := Option.some.inj (heq.symm.trans hindex)
  exact ⟨artifacts, hload, hkeys, fun source contracts h => (hgroups source contracts h).2.2,
    record, hrecord, hpath, hindex, hcontract⟩

end BuildTool

end ArtifactAtlas
