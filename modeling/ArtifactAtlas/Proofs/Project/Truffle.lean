import ArtifactAtlas.Project.Truffle
import ArtifactAtlas.Proofs.Artifact.BuildIndex
import ArtifactAtlas.Proofs.Artifact.Gathering
import ArtifactAtlas.Proofs.Artifact.IndexTable
import ArtifactAtlas.Proofs.Payload.Requests

/-!
# Source lists from imports

A contract lists its own source and those that its file imports, each of them once.
Where the trees of all of them record file indices that differ, each source is at its
index; otherwise the own source comes first and the source maps point nowhere else.
Every source on a list has a file, so it has a record too, and no request lacks one.
-/

namespace ArtifactAtlas.Truffle

/-- The trees of all sources record file indices, no two of them the same. -/
structure Indexed (index : BuildIndex) (sources : List String) : Prop where
  recorded : ∀ source ∈ sources, ∃ place, recordedIndex? index source = some place
  apart : (sources.map (recordedIndex? index)).Nodup

/-- Whether a file is among those that another one imports. -/
def Imports (graph : ImportGraph) (file imported : BuildFile) : Prop :=
  imported.path.components ∈ (graph.importsOf file.path).map (·.components)

/-- Every path is at the index that its tree records, and the source maps are as written. -/
structure KeepsIndices (index : BuildIndex) (file : BuildFile) (contract : Contract) : Prop where
  places : ∀ path ∈ contract.sourceList.named, ∃ place,
    recordedIndex? index path = some place ∧ contract.sourceList[place]? = some path
  sourceMap : file.text? "sourceMap" = some contract.sourceMap
  deployedSourceMap : file.text? "deployedSourceMap" = some contract.deployedSourceMap

/-- The own source comes first, the imports follow in order, and the source maps name no
file but the first. -/
structure Rehomes (file : BuildFile) (contract : Contract) : Prop where
  sourceList : ∃ imports, contract.sourceList = contract.mainSource :: imports ∧
    imports.Pairwise (· < ·)
  sourceMap : ∃ map, file.text? "sourceMap" = some map ∧
    contract.sourceMap = SourceMap.rehome 0 map
  deployedSourceMap : ∃ map, file.text? "deployedSourceMap" = some map ∧
    contract.deployedSourceMap = SourceMap.rehome 0 map

/-- The list and the maps of a contract, as its file and the files that it imports give them. -/
structure Arranged (files : List BuildFile) (index : BuildIndex) (file : BuildFile)
    (contract : Contract) : Prop where
  mainSource : file.text? sourceKey = some contract.mainSource
  nodup : contract.sourceList.named.Nodup
  named : ∀ path, path ∈ contract.sourceList.named ↔ path = contract.mainSource ∨
    ∃ imported ∈ files, Imports (ImportGraph.ofIndex index sourceKey) file imported ∧
      imported.text? sourceKey = some path
  indexed : Indexed index contract.sourceList.named → KeepsIndices index file contract
  rehomed : ¬ Indexed index contract.sourceList.named → Rehomes file contract

/-- The contract is what loading takes from the file. -/
def Loads (index : BuildIndex) (options : ProjectOptions) (file : BuildFile)
    (contract : Contract) : Prop :=
  ∃ source added, file.text? sourceKey = some source ∧ options.includes source = true ∧
    portion index (ImportGraph.ofIndex index sourceKey) source file = .ok added ∧
    contract ∈ added.contracts.map Prod.snd

/-! ## Layouts -/

variable {index : BuildIndex}

theorem Indexed.perm {sources others : List String} (h : Indexed index sources)
    (hperm : sources.Perm others) : Indexed index others where
  recorded source hsource := h.recorded source (hperm.mem_iff.mpr hsource)
  apart := (hperm.map _).nodup_iff.mp h.apart

/-- The rows of a layout's table: each source with the index that its tree records. -/
def Recorded (index : BuildIndex) : List String → List (Nat × String) → Prop :=
  List.Forall₂ (SourceList.StandsFor (recordedIndex? index) id)

theorem mapM_recordedIndex?_eq_some_iff {sources : List String} {table : List (Nat × String)} :
    sources.mapM (fun source => (recordedIndex? index source).map (·, source)) = some table ↔
      Recorded index sources table :=
  SourceList.mapM_index?_eq_some_iff

theorem Recorded.indexed_iff {sources : List String} {table : List (Nat × String)}
    (h : Recorded index sources table) :
    Indexed index sources ↔ (table.map Prod.fst).Nodup := by
  rw [SourceList.nodup_table_iff h]
  refine ⟨Indexed.apart, fun hapart => ⟨fun source hsource => ?_, hapart⟩⟩
  obtain ⟨entry, -, hentry⟩ := exists_of_mem_left_of_forall₂ h hsource
  exact ⟨entry.1, hentry.1⟩

theorem layout_of_not_indexed {origin : Path} {sources : List String}
    (h : ¬ Indexed index sources) : layout index origin sources = .ok ⟨sources, true⟩ := by
  rw [layout]
  split
  case h_1 table htable =>
    have hrecorded := mapM_recordedIndex?_eq_some_iff.mp htable
    rw [if_neg (mt hrecorded.indexed_iff.mpr h)]
  case h_2 => rfl

theorem layout_of_indexed {origin : Path} {sources : List String} {result : Layout}
    (hindexed : Indexed index sources) (hne : "" ∉ sources)
    (h : layout index origin sources = .ok result) :
    result.rehomed = false ∧ result.sourceList.named.Perm sources ∧
      ∀ path ∈ sources, ∃ place, recordedIndex? index path = some place ∧
        result.sourceList[place]? = some path := by
  obtain ⟨table, hrecorded⟩ :
      ∃ table, Recorded index sources table := SourceList.exists_table hindexed.recorded
  have hnodup := hrecorded.indexed_iff.mp hindexed
  have hsnd : table.map Prod.snd = sources := by
    rw [SourceList.map_snd_table hrecorded, List.map_id]
  simp only [layout, mapM_recordedIndex?_eq_some_iff.mpr hrecorded, if_pos hnodup,
    map_eq_ok_iff] at h
  obtain ⟨list, hlist, rfl⟩ := h
  have hperm := SourceList.perm_named_ofTable hlist hnodup
  rw [hsnd, SourceList.named_eq_self hne] at hperm
  refine ⟨rfl, hperm, fun path hpath => ?_⟩
  obtain ⟨entry, hentry, hplace, rfl⟩ := exists_of_mem_left_of_forall₂ hrecorded hpath
  have hnamed : entry.2 ≠ "" := ne_of_mem_of_not_mem (hsnd ▸ List.mem_map_of_mem hentry) hne
  exact ⟨entry.1, hplace, (SourceList.getElem?_ofTable_iff hlist hnodup hnamed).mpr hentry⟩

/-! ## The sources of a file -/

/-- The own source of a file and those that it imports, as a contract lists them. -/
def listedSources (index : BuildIndex) (file : BuildFile) (source : String) : List String :=
  source :: importedSources index (ImportGraph.ofIndex index sourceKey) file source

theorem mem_importedSources {graph : ImportGraph} {file : BuildFile} {source path : String} :
    path ∈ importedSources index graph file source ↔
      path ≠ source ∧ ∃ imported ∈ graph.importsOf file.path,
        index.sourceAt? imported sourceKey = some path := by
  rw [importedSources, OrderedSet.mem_keys_ofList, List.mem_filter, List.mem_filterMap,
    decide_eq_true_iff, and_comm]

theorem nodup_listedSources (index : BuildIndex) (file : BuildFile) (source : String) :
    (listedSources index file source).Nodup := by
  rw [listedSources, List.nodup_cons]
  exact ⟨fun h => (mem_importedSources.mp h).1 rfl, OrderedMap.nodup_keys _⟩

theorem contract_eq_ok {file : BuildFile} {source : String} {arrangement : Layout}
    {result : Contract} (h : contract file source arrangement = .ok result) :
    result.sourceList = arrangement.sourceList ∧ result.mainSource = source ∧
      ∃ map deployedMap, file.text? "sourceMap" = some map ∧
        file.text? "deployedSourceMap" = some deployedMap ∧
        result.sourceMap = (if arrangement.rehomed then SourceMap.rehome 0 map else map) ∧
        result.deployedSourceMap =
          if arrangement.rehomed then SourceMap.rehome 0 deployedMap else deployedMap := by
  simp only [contract, bind_eq_ok_iff, pure_eq_ok_iff, BuildFile.requiredText_eq_ok_iff] at h
  obtain ⟨map, hmap, deployedMap, hdeployedMap, _, -, _, -, _, -, rfl⟩ := h
  exact ⟨rfl, rfl, map, deployedMap, hmap, hdeployedMap, rfl, rfl⟩

/-- A file adds nothing, or the one contract that is put together from its sources. -/
theorem portion_eq_ok {source : String} {file : BuildFile} {added : Portion}
    (h : portion index (ImportGraph.ofIndex index sourceKey) source file = .ok added) :
    added = .none ∨ ∃ arrangement result,
      layout index file.path (listedSources index file source) = .ok arrangement ∧
      contract file source arrangement = .ok result ∧
      added.contracts = [(source, result)] ∧
      records index result.sourceList = .ok added.sources := by
  rw [portion] at h
  split at h
  case isTrue => exact .inl (pure_eq_ok_iff.mp h).symm
  case isFalse =>
    simp only [bind_eq_ok_iff, pure_eq_ok_iff] at h
    obtain ⟨arrangement, harrangement, result, hresult, sources, hsources, rfl⟩ := h
    exact .inr ⟨arrangement, result, harrangement, hresult, rfl, hsources⟩

theorem exists_record {list : SourceList} {results : List (String × SourceRecord)}
    (h : records index list = .ok results) {path : String} (hpath : path ∈ list.named)
    {origin : BuildFile} (horigin : index.first? path = some origin) :
    ∃ record, Entries.lookup path results = some record := by
  rw [← SourceList.map_snd_placed, List.mem_map] at hpath
  obtain ⟨⟨place, path⟩, hplaced, rfl⟩ := hpath
  have hdeclared : (place, path, origin) ∈ list.placed.filterMap fun entry =>
      (index.first? entry.2).map (entry.1, entry.2, ·) :=
    List.mem_filterMap.mpr ⟨(place, path), hplaced, by rw [horigin]; rfl⟩
  obtain ⟨entry, hentry, hresult⟩ :=
    exists_of_mem_left_of_forall₂ (mapM_eq_ok_iff.mp h) hdeclared
  simp only [bind_eq_ok_iff, pure_eq_ok_iff] at hresult
  obtain ⟨record, -, rfl⟩ := hresult
  exact Entries.exists_lookup_of_mem hentry

theorem Arranged.exists_declaring {files : List BuildFile} {file : BuildFile}
    {result : Contract} (h : Arranged files index file result) (hfile : file ∈ files)
    {path : String} (hpath : path ∈ result.sourceList.named) :
    ∃ declaring ∈ files, declaring.text? sourceKey = some path := by
  rcases (h.named path).mp hpath with rfl | ⟨imported, himported, -, hdeclares⟩
  · exact ⟨file, hfile, h.mainSource⟩
  · exact ⟨imported, himported, hdeclares⟩

/-! ## Loaded contracts -/

section

variable {files : List BuildFile} {options : ProjectOptions} {artifacts : Artifacts}
  {file : BuildFile}
  (hindex : BuildIndex.ofFiles sourceKey files = .ok index)
  (hpaths : (files.map (·.path.components)).Nodup)

include hindex hpaths

theorem mem_listedSources_iff {source path : String} :
    path ∈ listedSources index file source ↔ path = source ∨ ∃ imported ∈ files,
      Imports (ImportGraph.ofIndex index sourceKey) file imported ∧
        imported.text? sourceKey = some path := by
  simp only [listedSources, List.mem_cons, mem_importedSources, Imports, List.mem_map,
    BuildIndex.sourceAt?_eq_some_iff hindex hpaths]
  constructor
  · rintro (rfl | ⟨-, place, hplace, imported, himported, hcomponents, hsource⟩)
    · exact .inl rfl
    · exact .inr ⟨imported, himported, ⟨place, hplace, hcomponents.symm⟩, hsource⟩
  · rintro (rfl | ⟨imported, himported, ⟨place, hplace, hcomponents⟩, hsource⟩)
    · exact .inl rfl
    · by_cases heq : path = source
      · exact .inl heq
      · exact .inr ⟨heq, place, hplace, imported, himported, hcomponents.symm, hsource⟩

variable (hnamed : ∀ file ∈ files, file.text? sourceKey ≠ some "")

include hnamed

theorem empty_not_mem_listedSources {source : String} (hfile : file ∈ files)
    (hsource : file.text? sourceKey = some source) :
    "" ∉ listedSources index file source := by
  intro hempty
  rcases (mem_listedSources_iff hindex hpaths).mp hempty with
    rfl | ⟨imported, himported, -, hdeclares⟩
  · exact hnamed file hfile hsource
  · exact hnamed imported himported hdeclares

theorem arranged_of_loads (hfile : file ∈ files) {result : Contract}
    (h : Loads index options file result) : Arranged files index file result := by
  obtain ⟨source, added, hsource, -, hadded, hresult⟩ := h
  rcases portion_eq_ok hadded with rfl | ⟨arrangement, _, hlayout, hcontract, hcontracts, -⟩
  · cases hresult
  rw [hcontracts, List.map_singleton, List.mem_singleton] at hresult
  subst hresult
  obtain ⟨hlist, rfl, map, deployedMap, hmap, hdeployedMap, hresultMap, hresultDeployed⟩ :=
    contract_eq_ok hcontract
  have hnodup := nodup_listedSources index file result.mainSource
  have hne := empty_not_mem_listedSources hindex hpaths hnamed hfile hsource
  have hmem : ∀ path, path ∈ listedSources index file result.mainSource ↔ _ :=
    fun path => mem_listedSources_iff hindex hpaths
  by_cases hindexed : Indexed index (listedSources index file result.mainSource)
  · obtain ⟨hrehomed, hperm, hplaces⟩ := layout_of_indexed hindexed hne hlayout
    rw [hrehomed] at hresultMap hresultDeployed
    rw [← hlist] at hperm hplaces
    exact {
      mainSource := hsource
      nodup := hperm.nodup_iff.mpr hnodup
      named := fun path => hperm.mem_iff.trans (hmem path)
      indexed := fun _ => {
        places := fun path hpath => hplaces path (hperm.mem_iff.mp hpath)
        sourceMap := hresultMap ▸ hmap
        deployedSourceMap := hresultDeployed ▸ hdeployedMap }
      rehomed := fun hnot => absurd (hindexed.perm hperm.symm) hnot }
  · cases (layout_of_not_indexed hindexed).symm.trans hlayout
    have hnames : result.sourceList.named = listedSources index file result.mainSource := by
      rw [hlist, SourceList.named_eq_self hne]
    exact {
      mainSource := hsource
      nodup := hnames ▸ hnodup
      named := fun path => by rw [hnames, hmem]
      indexed := fun hcontra => absurd (hnames ▸ hcontra) hindexed
      rehomed := fun _ => {
        sourceList := ⟨_, hlist, OrderedMap.pairwise_keys _⟩
        sourceMap := ⟨map, hmap, hresultMap⟩
        deployedSourceMap := ⟨deployedMap, hdeployedMap, hresultDeployed⟩ } }

omit hpaths hnamed in
theorem exists_portions_of_ofIndex (h : ofIndex index options = .ok artifacts) :
    ∃ portions, artifacts = .gather portions ∧ ∀ added, added ∈ portions ↔
      ∃ file ∈ files, ∃ source,
        file.text? sourceKey = some source ∧ options.includes source = true ∧
        portion index (ImportGraph.ofIndex index sourceKey) source file = .ok added := by
  simp only [ofIndex, bind_eq_ok_iff, pure_eq_ok_iff] at h
  obtain ⟨portions, hportions, rfl⟩ := h
  have hsteps := forall₂_of_mapM_groups
    (portion index (ImportGraph.ofIndex index sourceKey)) hportions
  refine ⟨_, rfl, fun added => ⟨fun hadded => ?_, ?_⟩⟩
  · obtain ⟨⟨source, file⟩, hitem, hportion⟩ := exists_of_mem_of_forall₂ hsteps hadded
    obtain ⟨hincluded, hdeclaring⟩ := OrderedMap.mem_flatMap_groups.mp hitem
    obtain ⟨hfile, hsource⟩ := (BuildIndex.mem_declaring_iff hindex).mp hdeclaring
    exact ⟨file, hfile, source, hsource, hincluded, hportion⟩
  · rintro ⟨file, hfile, source, hsource, hincluded, hportion⟩
    have hdeclaring := (BuildIndex.mem_declaring_iff hindex).mpr ⟨hfile, hsource⟩
    obtain ⟨other, hother, heq⟩ := exists_of_mem_left_of_forall₂ hsteps
      (OrderedMap.mem_flatMap_groups.mpr ⟨hincluded, hdeclaring⟩)
    obtain rfl : added = other := Except.ok.inj (hportion.symm.trans heq)
    exact hother

omit hpaths hnamed in
theorem mem_allContracts_iff (h : ofIndex index options = .ok artifacts) {result : Contract} :
    result ∈ artifacts.allContracts ↔ ∃ file ∈ files, Loads index options file result := by
  obtain ⟨portions, rfl, hadded⟩ := exists_portions_of_ofIndex hindex h
  rw [Artifacts.mem_allContracts_gather]
  constructor
  · rintro ⟨added, hmem, declared, hresult⟩
    obtain ⟨file, hfile, source, hsource, hincluded, hportion⟩ := (hadded added).mp hmem
    exact ⟨file, hfile, source, added, hsource, hincluded, hportion,
      List.mem_map_of_mem hresult⟩
  · rintro ⟨file, hfile, source, added, hsource, hincluded, hportion, hresult⟩
    obtain ⟨⟨declared, _⟩, hentry, rfl⟩ := List.mem_map.mp hresult
    exact ⟨added, (hadded added).mpr ⟨file, hfile, source, hsource, hincluded, hportion⟩,
      declared, hentry⟩

theorem contains_of_loads (h : ofIndex index options = .ok artifacts) (hfile : file ∈ files)
    {result : Contract} (hloads : Loads index options file result) {path : String}
    (hpath : path ∈ result.sourceList.named) : artifacts.sources.contains path = true := by
  have harranged := arranged_of_loads hindex hpaths hnamed hfile hloads
  obtain ⟨declaring, hdeclaring, hdeclares⟩ := harranged.exists_declaring hfile hpath
  obtain ⟨origin, horigin⟩ := BuildIndex.exists_first? hindex hdeclaring hdeclares
  obtain ⟨portions, rfl, hadded⟩ := exists_portions_of_ofIndex hindex h
  obtain ⟨source, added, hsource, hincluded, hportion, hresult⟩ := hloads
  have hmem := (hadded added).mpr ⟨file, hfile, source, hsource, hincluded, hportion⟩
  rcases portion_eq_ok hportion with rfl | ⟨_, _, -, -, hcontracts, hrecords⟩
  · cases hresult
  rw [hcontracts, List.map_singleton, List.mem_singleton] at hresult
  subst hresult
  obtain ⟨record, hrecord⟩ := exists_record hrecords hpath horigin
  exact Artifacts.contains_sources_gather hmem hrecord

end

/--
Every loaded contract lists its own source and those that its file imports, each of
them once and in its place, with the source maps to go with it.  All of them have
records, so assembling fails no contract and every request has the sources it lists.
-/
theorem loaded_contracts_have_listed_sources {files : List BuildFile} {index : BuildIndex}
    {options : ProjectOptions} {artifacts : Artifacts}
    (hindex : BuildIndex.ofFiles sourceKey files = .ok index)
    (hpaths : (files.map (·.path.components)).Nodup)
    (hnamed : ∀ file ∈ files, file.text? sourceKey ≠ some "")
    (hload : ofIndex index options = .ok artifacts) :
    (∀ contract, contract ∈ artifacts.allContracts ↔
      ∃ file ∈ files, Loads index options file contract) ∧
    (∀ file ∈ files, ∀ contract, Loads index options file contract →
      Arranged files index file contract ∧
        ∀ path ∈ contract.sourceList.named, artifacts.sources.contains path = true) ∧
    (Payload.assemble artifacts).failed = [] ∧
    ∀ r ∈ (Payload.assemble artifacts).requests, r.mainSource ∈ r.sourceList.named ∧
      ∀ path ∈ r.sourceList.named, r.sources.contains path = true := by
  have hloaded : ∀ contract ∈ artifacts.allContracts,
      contract.mainSource ∈ contract.sourceList.named ∧
        ∀ path ∈ contract.sourceList.named, artifacts.sources.contains path = true := by
    intro contract hcontract
    obtain ⟨file, hfile, hloads⟩ := (mem_allContracts_iff hindex hload).mp hcontract
    have harranged := arranged_of_loads hindex hpaths hnamed hfile hloads
    refine ⟨(harranged.named _).mpr (.inl rfl), fun path hpath => ?_⟩
    exact contains_of_loads hindex hpaths hnamed hload hfile hloads hpath
  refine ⟨fun contract => mem_allContracts_iff hindex hload, ?_, ?_, ?_⟩
  · intro file hfile contract hloads
    exact ⟨arranged_of_loads hindex hpaths hnamed hfile hloads, fun path hpath =>
      contains_of_loads hindex hpaths hnamed hload hfile hloads hpath⟩
  · rw [Payload.failed_assemble, List.map_eq_nil_iff, List.filter_eq_nil_iff]
    intro contract hcontract
    obtain ⟨hmain, hknown⟩ := hloaded contract hcontract
    rw [hknown _ hmain]
    simp
  · intro r hr
    obtain ⟨contract, hsubmitted, rfl⟩ := Payload.mem_requests_assemble.mp hr
    obtain ⟨hmain, hknown⟩ := hloaded contract (List.mem_filter.mp hsubmitted).1
    refine ⟨hmain, fun path hpath => ?_⟩
    exact (Payload.contains_sources_request hsubmitted (hknown path hpath)).mpr hpath

/-- The file of a contract with its source, the `src` of its tree and its imports. -/
def contractFile (name src : String) (imports : List String) : BuildFile :=
  let directive (path : String) : Json :=
    .object [("nodeType", .string "ImportDirective"), ("absolutePath", .string path)]
  { path := ⟨"/b/" ++ name⟩
    data := .object [
      ("contractName", .string name), ("sourcePath", .string name), ("source", .string "..."),
      ("bytecode", .string "60"), ("deployedBytecode", .string "60"),
      ("sourceMap", .string "0:1:3"), ("deployedSourceMap", .string "0:1:3"),
      ("ast", .object [("src", .string src), ("nodes", .array (imports.map directive))])] }

/-- Two files that import a third one, the second of them without a file index. -/
def importingFiles : List BuildFile :=
  [contractFile "A" "0:1:1" ["C"], contractFile "B" "0:1" ["C"], contractFile "C" "0:1:3" []]

def everySource : ProjectOptions := ⟨⟨"/"⟩, none, .all, none⟩

/-- Of the two that import, one has its sources at their indices and one is rehomed. -/
theorem importingFiles_have_listed_sources :
    ∃ index artifacts, BuildIndex.ofFiles sourceKey importingFiles = .ok index ∧
      (importingFiles.map (·.path.components)).Nodup ∧
      (∀ file ∈ importingFiles, file.text? sourceKey ≠ some "") ∧
      ofIndex index everySource = .ok artifacts ∧
      artifacts.allContracts.map (fun contract => (contract.sourceList, contract.sourceMap)) =
        [(["", "A", "", "C"], "0:1:3"), (["B", "C"], "0:1:0"), (["", "", "", "C"], "0:1:3")] ∧
      (Payload.assemble artifacts).failed = [] ∧
      ∀ r ∈ (Payload.assemble artifacts).requests, ∀ path ∈ r.sourceList.named,
        r.sources.contains path = true := by
  have hevaluated : ((BuildIndex.ofFiles sourceKey importingFiles).toOption.bind fun index =>
      (ofIndex index everySource).toOption.map fun artifacts =>
        artifacts.allContracts.map fun contract => (contract.sourceList, contract.sourceMap)) =
      some [(["", "A", "", "C"], "0:1:3"), (["B", "C"], "0:1:0"),
        (["", "", "", "C"], "0:1:3")] := by
    decide +kernel
  have hpaths : (importingFiles.map (·.path.components)).Nodup := by decide +kernel
  have hnamed : ∀ file ∈ importingFiles, file.text? sourceKey ≠ some "" := by decide +kernel
  obtain ⟨index, hindex, hload⟩ := Option.bind_eq_some_iff.mp hevaluated
  obtain ⟨artifacts, hartifacts, hcontracts⟩ := toOption_map_eq_some_iff.mp hload
  rw [toOption_eq_some_iff] at hindex
  obtain ⟨-, -, hfailed, hrequests⟩ :=
    loaded_contracts_have_listed_sources hindex hpaths hnamed hartifacts
  exact ⟨index, artifacts, hindex, hpaths, hnamed, hartifacts, hcontracts, hfailed,
    fun r hr => (hrequests r hr).2⟩

end ArtifactAtlas.Truffle
