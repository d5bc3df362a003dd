import ArtifactAtlas.Project.Load
import ArtifactAtlas.Proofs.Artifact.Gathering
import ArtifactAtlas.Proofs.Artifact.Steps
import ArtifactAtlas.Proofs.Project.Compilation

/-!
# Including fewer sources

What a build file adds to a project does not depend on which sources are included.  So
to include fewer is to leave out the contracts of the others, and to load nothing that
could not be loaded before.
-/

namespace ArtifactAtlas

/-- The second artifacts are the first without the contracts of the sources that are not
kept, and with no more sources. -/
structure Artifacts.Restricts (keep : String → Bool) (full restricted : Artifacts) : Prop where
  contracts : restricted.contracts = full.contracts.filter fun source _ => keep source
  sources : ∀ path ∈ restricted.sources.keys, path ∈ full.sources.keys

/-- The second portions bring along the contracts of the first that are kept, and only
sources of the first. -/
structure Portion.Restricts (keep : String → Bool) (full restricted : List Portion) : Prop where
  contracts : restricted.flatMap (·.contracts) =
    (full.flatMap (·.contracts)).filter fun entry => keep entry.1
  sources : restricted.flatMap (·.sources) ⊆ full.flatMap (·.sources)

/-! ## Gathering fewer portions -/

namespace Portion.Restricts

variable {keep : String → Bool}

theorem append {full restricted more moreRestricted : List Portion}
    (h : Restricts keep full restricted) (hmore : Restricts keep more moreRestricted) :
    Restricts keep (full ++ more) (restricted ++ moreRestricted) where
  contracts := by
    rw [List.flatMap_append, List.flatMap_append, List.filter_append, h.contracts,
      hmore.contracts]
  sources := by
    rw [List.flatMap_append, List.flatMap_append]
    exact List.append_subset.mpr ⟨List.subset_append_of_subset_left _ h.sources,
      List.subset_append_of_subset_right _ hmore.sources⟩

theorem singleton {full restricted : Portion}
    (hcontracts : restricted.contracts = full.contracts.filter fun entry => keep entry.1)
    (hsources : restricted.sources ⊆ full.sources) : Restricts keep [full] [restricted] := by
  constructor
  · rwa [List.flatMap_singleton, List.flatMap_singleton]
  · rwa [List.flatMap_singleton, List.flatMap_singleton]

theorem of_forall₂ {full restricted : List Portion}
    (h : List.Forall₂ (fun kept added => Restricts keep [added] [kept]) restricted full) :
    Restricts keep full restricted := by
  induction h with
  | nil => exact ⟨rfl, List.nil_subset _⟩
  | cons hhead _ ih => exact hhead.append ih

theorem gather {full restricted : List Portion} (h : Restricts keep full restricted) :
    (Artifacts.gather full).Restricts keep (.gather restricted) where
  contracts := by
    have hgroups := OrderedMap.foldl_push_filter keep .empty (full.flatMap (·.contracts))
    rw [← h.contracts] at hgroups
    exact hgroups
  sources := by
    intro path
    rw [Artifacts.mem_keys_sources_gather, Artifacts.mem_keys_sources_gather]
    exact fun hpath => List.map_subset _ h.sources hpath

end Portion.Restricts

/-! ## Loading fewer groups -/

section

variable (keep : String → Bool) (step : String → BuildFile → Except Failure Portion)
  (hsource : ∀ source file portion, step source file = .ok portion →
    ∀ entry ∈ portion.contracts, entry.1 = source)

include hsource

/-- The contracts of one group are all kept or all left out. -/
theorem restricts_group {source : String} {files : List BuildFile} {portions : List Portion}
    (h : files.mapM (step source) = .ok portions) :
    Portion.Restricts keep portions (if keep source then portions else []) := by
  have hkey : ∀ entry ∈ portions.flatMap (·.contracts), entry.1 = source := by
    intro entry hentry
    obtain ⟨portion, hportion, hentry⟩ := List.mem_flatMap.mp hentry
    obtain ⟨file, -, hstep⟩ := exists_of_mem_of_forall₂ (mapM_eq_ok_iff.mp h) hportion
    exact hsource source file portion hstep entry hentry
  cases hkeep : keep source with
  | true =>
      rw [if_pos rfl]
      refine ⟨(List.filter_eq_self.mpr fun entry hentry => ?_).symm, List.Subset.refl _⟩
      rw [hkey entry hentry, hkeep]
  | false =>
      rw [if_neg Bool.false_ne_true]
      refine ⟨(List.filter_eq_nil_iff.mpr fun entry hentry => ?_).symm, List.nil_subset _⟩
      rw [hkey entry hentry, hkeep]
      exact Bool.false_ne_true

/-- Where all groups can be loaded, so can those that are kept. -/
theorem exists_mapM_kept_groups {groups : List (String × List BuildFile)}
    {results : List (List Portion)}
    (h : groups.mapM (fun group => group.2.mapM (step group.1)) = .ok results) :
    ∃ kept, (groups.filter fun group => keep group.1).mapM
        (fun group => group.2.mapM (step group.1)) = .ok kept ∧
      Portion.Restricts keep results.flatten kept.flatten := by
  rw [mapM_eq_ok_iff] at h
  simp only [mapM_eq_ok_iff]
  induction h with
  | nil => exact ⟨[], .nil, rfl, List.nil_subset _⟩
  | @cons group portions _ _ hgroup _ ih =>
      obtain ⟨kept, hkept, hrest⟩ := ih
      have hrestricts := (restricts_group keep step hsource hgroup).append hrest
      rw [List.filter_cons, List.flatten_cons]
      split
      case isTrue hkeep =>
        rw [if_pos hkeep] at hrestricts
        exact ⟨portions :: kept, .cons (mapM_eq_ok_iff.mp hgroup) hkept, hrestricts⟩
      case isFalse hkeep =>
        rw [if_neg hkeep] at hrestricts
        exact ⟨kept, hkept, hrestricts⟩

end

variable {tree : FileTree} {options : ProjectOptions} {full : Artifacts}

theorem filter_includes_all {ν : Type} (options : ProjectOptions) (entries : List (String × ν)) :
    entries.filter (fun entry => { options with included := .all }.includes entry.1) = entries :=
  List.filter_eq_self.mpr fun _ _ => rfl

/-! ## One file for each contract -/

namespace Truffle

theorem source_of_portion {index : BuildIndex} {graph : ImportGraph} {source : String}
    {file : BuildFile} {added : Portion} (h : portion index graph source file = .ok added) :
    ∀ entry ∈ added.contracts, entry.1 = source := by
  simp only [portion] at h
  split at h
  case isTrue =>
    cases pure_eq_ok_iff.mp h
    exact List.forall_mem_nil _
  case isFalse =>
    simp only [bind_eq_ok_iff, pure_eq_ok_iff] at h
    obtain ⟨layout, -, contract, -, records, -, rfl⟩ := h
    exact List.forall_mem_singleton.mpr rfl

theorem exists_load_restricted (h : load tree { options with included := .all } = .ok full)
    (included : IncludeSet) :
    ∃ restricted, load tree { options with included } = .ok restricted ∧
      full.Restricts (included.includes · options.directory) restricted := by
  simp only [load, ofIndex, bind_eq_ok_iff, pure_eq_ok_iff, filter_includes_all] at h ⊢
  obtain ⟨index, hindex, _, ⟨portions, hportions, rfl⟩, rfl⟩ := h
  obtain ⟨kept, hkept, hrestricts⟩ := exists_mapM_kept_groups
    (included.includes · options.directory) (portion index (.ofIndex index sourceKey))
    (fun _ _ _ => source_of_portion) hportions
  have hgather := hrestricts.gather
  exact ⟨_, ⟨index, hindex, _, ⟨kept, hkept, rfl⟩, rfl⟩, hgather.contracts, hgather.sources⟩

end Truffle

namespace Hardhat

theorem source_of_portion {source : String} {file : BuildFile} {added : Portion}
    (h : portion tree options source file = .ok added) :
    ∀ entry ∈ added.contracts, entry.1 = source := by
  simp only [portion, bind_eq_ok_iff, pure_eq_ok_iff] at h
  obtain ⟨name, -, path, -, info, -, contract, -, rfl⟩ := h
  exact List.forall_mem_singleton.mpr rfl

theorem exists_load_restricted (h : load tree { options with included := .all } = .ok full)
    (included : IncludeSet) :
    ∃ restricted, load tree { options with included } = .ok restricted ∧
      full.Restricts (included.includes · options.directory) restricted := by
  simp only [load, bind_eq_ok_iff, pure_eq_ok_iff, filter_includes_all] at h ⊢
  obtain ⟨files, hfiles, index, hindex, portions, hportions, rfl⟩ := h
  obtain ⟨kept, hkept, hrestricts⟩ := exists_mapM_kept_groups
    (included.includes · options.directory) (portion tree options)
    (fun _ _ _ => source_of_portion) hportions
  have hgather := hrestricts.gather
  exact ⟨_, ⟨files, hfiles, index, hindex, kept, hkept, rfl⟩, hgather.contracts,
    hgather.sources⟩

end Hardhat

namespace Brownie

theorem source_of_portion {index : BuildIndex} {source : String} {file : BuildFile}
    {added : Portion} (h : portion tree options index source file = .ok added) :
    ∀ entry ∈ added.contracts, entry.1 = source := by
  simp only [portion, bind_eq_ok_iff, pure_eq_ok_iff] at h
  obtain ⟨contract, -, records, -, rfl⟩ := h
  exact List.forall_mem_singleton.mpr rfl

theorem exists_load_restricted (h : load tree { options with included := .all } = .ok full)
    (included : IncludeSet) :
    ∃ restricted, load tree { options with included } = .ok restricted ∧
      full.Restricts (included.includes · options.directory) restricted := by
  simp only [load, bind_eq_ok_iff, pure_eq_ok_iff, filter_includes_all] at h ⊢
  obtain ⟨index, hindex, portions, hportions, rfl⟩ := h
  obtain ⟨kept, hkept, hrestricts⟩ := exists_mapM_kept_groups
    (included.includes · options.directory) (portion tree options index)
    (fun _ _ _ => source_of_portion) hportions
  have hgather := hrestricts.gather
  exact ⟨_, ⟨index, hindex, kept, hkept, rfl⟩, hgather.contracts, hgather.sources⟩

end Brownie

/-! ## Documents of several contracts -/

namespace Solidity

/-- The contracts under their sources, as they stand in the output of the compiler. -/
def named (bySource : List (String × Json)) : List (String × String × Json) :=
  bySource.flatMap fun (source, byName) =>
    (byName.object?.getD []).map fun (name, data) => (source, name, data)

theorem named_filter (keep : String → Bool) (bySource : List (String × Json)) :
    named (bySource.filter fun entry => keep entry.1) =
      (named bySource).filter fun item => keep item.1 := by
  induction bySource with
  | nil => rfl
  | cons entry rest ih =>
      rw [named, named] at ih ⊢
      rw [List.flatMap_cons, List.filter_append, ← ih, List.filter_cons, List.filter_map]
      cases hkeep : keep entry.1 <;> simp [Function.comp_def, hkeep]

theorem contracts_restricted {origin : Path} {sourceList : SourceList}
    {bySource : List (String × Json)} {results : List (String × Contract)}
    (h : contracts { options with included := .all } origin sourceList bySource = .ok results)
    (included : IncludeSet) :
    contracts { options with included } origin sourceList bySource =
      .ok (results.filter fun entry => included.includes entry.1 options.directory) := by
  simp only [contracts, filter_includes_all] at h ⊢
  have hnamed := named_filter (included.includes · options.directory) bySource
  simp only [named] at hnamed
  simp only [ProjectOptions.includes]
  rw [hnamed]
  refine mapM_filter_eq_ok h fun item result hstep => ?_
  simp only [bind_eq_ok_iff, pure_eq_ok_iff] at hstep
  obtain ⟨contract, -, rfl⟩ := hstep
  rfl

theorem exists_portion_restricted {document : BuildFile} {added : Portion}
    (h : portion tree { options with included := .all } document = .ok added)
    (included : IncludeSet) :
    ∃ kept, portion tree { options with included } document = .ok kept ∧
      Portion.Restricts (included.includes · options.directory) [added] [kept] := by
  cases hbySource : ((outputOf document.data).get? "contracts").bind Json.object? with
  | none =>
      simp only [portion, hbySource] at h
      cases h
  | some bySource =>
      simp only [portion, hbySource, bind_eq_ok_iff] at h ⊢
      obtain ⟨sourceList, hsourceList, results, hresults, h⟩ := h
      have hkept := contracts_restricted hresults included
      cases results with
      | nil =>
          cases pure_eq_ok_iff.mp h
          refine ⟨.none, ⟨sourceList, hsourceList, [], hkept, rfl⟩, ?_⟩
          exact .singleton rfl (List.nil_subset _)
      | cons first rest =>
          cases pure_eq_ok_iff.mp h
          by_cases hempty : ((first :: rest).filter fun entry =>
              included.includes entry.1 options.directory).isEmpty
          · refine ⟨.none, ⟨sourceList, hsourceList, _, hkept, if_pos hempty⟩, ?_⟩
            exact .singleton (List.isEmpty_iff.mp hempty).symm (List.nil_subset _)
          · refine ⟨_, ⟨sourceList, hsourceList, _, hkept, if_neg hempty⟩, ?_⟩
            exact .singleton rfl (List.Subset.refl _)

theorem exists_load_restricted (h : load tree { options with included := .all } = .ok full)
    (included : IncludeSet) :
    ∃ restricted, load tree { options with included } = .ok restricted ∧
      full.Restricts (included.includes · options.directory) restricted := by
  simp only [load, bind_eq_ok_iff, pure_eq_ok_iff] at h ⊢
  obtain ⟨files, hfiles, portions, hportions, rfl⟩ := h
  obtain ⟨kept, hkept, hrelated⟩ := exists_mapM_eq_ok (portion tree { options with included })
    (mapM_eq_ok_iff.mp hportions) fun _ _ hportion => exists_portion_restricted hportion included
  have hgather := (Portion.Restricts.of_forall₂ hrelated).gather
  exact ⟨_, ⟨files, hfiles, kept, hkept, rfl⟩, hgather.contracts, hgather.sources⟩

end Solidity

/-! ## Every tool -/

namespace BuildTool

/--
What can be loaded in whole can be loaded in part: for any wanted files there are the
contracts of the sources that they stand for, as they were, and no sources but those that
were there before.
-/
theorem load_only_restricts_load_all (tool : BuildTool) (tree : FileTree)
    (options : ProjectOptions) (full : Artifacts)
    (h : tool.load tree { options with included := .all } = .ok full)
    (files : OrderedSet (List Path.Component)) :
    ∃ restricted, tool.load tree { options with included := .only files } = .ok restricted ∧
      restricted.contracts = full.contracts.filter (fun source _ =>
        files.contains ((Path.mk source).absoluteFrom options.directory).components) ∧
      ∀ path ∈ restricted.sources.keys, path ∈ full.sources.keys := by
  have hrestricted : ∃ restricted,
      tool.load tree { options with included := .only files } = .ok restricted ∧
        full.Restricts ((IncludeSet.only files).includes · options.directory) restricted := by
    cases tool with
    | solidity => exact Solidity.exists_load_restricted h _
    | truffle => exact Truffle.exists_load_restricted h _
    | hardhat => exact Hardhat.exists_load_restricted h _
    | brownie => exact Brownie.exists_load_restricted h _
  obtain ⟨restricted, hload, hrestricts⟩ := hrestricted
  exact ⟨restricted, hload, hrestricts.contracts, hrestricts.sources⟩

theorem keys_contracts_twoVersions :
    (hardhat.load Compilation.twoVersions Compilation.atRoot).toOption.map (·.contracts.keys) =
      some ["A", "B"] := by
  -- the tree gets a name, so that it is only evaluated at the end
  obtain ⟨tree, htree⟩ : ∃ tree, tree = Compilation.twoVersions := ⟨_, rfl⟩
  rw [← htree]
  unfold BuildTool.load Hardhat.load Hardhat.artifactFiles Hardhat.portion Hardhat.BuildInfo.read
    Hardhat.buildInfoPath BuildFile.readAll
  rw [BuildFile.read_eq_readAscii, htree]
  decide +kernel

/-- Of two contracts the wanted one is loaded. -/
theorem load_only_second_of_twoVersions :
    ∃ full restricted,
      hardhat.load Compilation.twoVersions { Compilation.atRoot with included := .all } =
        .ok full ∧
      hardhat.load Compilation.twoVersions
        { Compilation.atRoot with included := .only (.ofList [(Path.mk "/B").components]) } =
        .ok restricted ∧
      full.contracts.keys = ["A", "B"] ∧ restricted.contracts.keys = ["B"] ∧
      ∀ path ∈ restricted.sources.keys, path ∈ full.sources.keys := by
  obtain ⟨full, hfull, hkeys⟩ := toOption_map_eq_some_iff.mp keys_contracts_twoVersions
  obtain ⟨restricted, hrestricted, hcontracts, hsources⟩ :=
    load_only_restricts_load_all hardhat Compilation.twoVersions Compilation.atRoot full hfull
      (.ofList [(Path.mk "/B").components])
  refine ⟨full, restricted, hfull, hrestricted, hkeys, ?_, hsources⟩
  rw [hcontracts, OrderedMap.keys_filter, hkeys]
  decide +kernel

end BuildTool

end ArtifactAtlas
