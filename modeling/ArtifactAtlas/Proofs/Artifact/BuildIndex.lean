import ArtifactAtlas.Artifact.BuildIndex
import ArtifactAtlas.Proofs.Artifact.Steps
import ArtifactAtlas.Proofs.OrderedMap

/-!
# What a build index finds

Under a source an index has the files that declare it, in their order.  Under a path it
has the file of that path, as long as the paths differ.
-/

namespace ArtifactAtlas

theorem BuildFile.requiredText_eq_ok_iff {file : BuildFile} {key text : String} :
    file.requiredText key = .ok text ↔ file.text? key = some text := by
  rw [requiredText]
  cases file.text? key <;> simp

namespace BuildIndex

variable {sourceKey : String} {files : List BuildFile} {index : BuildIndex}

/-- Each file declares a source, and the index is made of the files with these. -/
theorem exists_sources_of_ofFiles (h : ofFiles sourceKey files = .ok index) :
    ∃ sources, List.Forall₂ (fun file source => file.text? sourceKey = some source) files
        sources ∧
      index.groups = (sources.zip files).foldl
        (fun groups entry => groups.push entry.1 entry.2) .empty ∧
      index.byPath = .ofList (files.map fun file => (file.path.components, file)) := by
  simp only [ofFiles, bind_eq_ok_iff, pure_eq_ok_iff, mapM_eq_ok_iff,
    BuildFile.requiredText_eq_ok_iff] at h
  obtain ⟨sources, hsources, rfl⟩ := h
  exact ⟨sources, hsources, rfl, rfl⟩

theorem files_of_ofFiles (h : ofFiles sourceKey files = .ok index) : index.files = files := by
  simp only [ofFiles, bind_eq_ok_iff, pure_eq_ok_iff] at h
  obtain ⟨_, -, rfl⟩ := h
  rfl

theorem exists_text?_of_ofFiles (h : ofFiles sourceKey files = .ok index) {file : BuildFile}
    (hfile : file ∈ files) : ∃ source, file.text? sourceKey = some source := by
  obtain ⟨_, hsources, -⟩ := exists_sources_of_ofFiles h
  obtain ⟨source, -, hsource⟩ := exists_of_mem_left_of_forall₂ hsources hfile
  exact ⟨source, hsource⟩

theorem exists_ofFiles (h : ∀ file ∈ files, ∃ source, file.text? sourceKey = some source) :
    ∃ index, ofFiles sourceKey files = .ok index := by
  have hsources : ∃ sources, files.mapM (·.requiredText sourceKey) = .ok sources := by
    simp only [mapM_eq_ok_iff, BuildFile.requiredText_eq_ok_iff]
    induction files with
    | nil => exact ⟨[], .nil⟩
    | cons file rest ih =>
        rw [List.forall_mem_cons] at h
        obtain ⟨source, hsource⟩ := h.1
        obtain ⟨sources, hsources⟩ := ih h.2
        exact ⟨source :: sources, .cons hsource hsources⟩
  obtain ⟨sources, hsources⟩ := hsources
  exact ⟨_, bind_eq_ok_iff.mpr ⟨sources, hsources, rfl⟩⟩

theorem declaring_of_ofFiles (h : ofFiles sourceKey files = .ok index) (source : String) :
    index.declaring source = files.filter (·.text? sourceKey = some source) := by
  obtain ⟨sources, hsources, hgroups, -⟩ := exists_sources_of_ofFiles h
  have hempty : ((.empty : OrderedMap String (List BuildFile)).get? source).getD [] = [] := rfl
  rw [declaring, hgroups, OrderedMap.getD_get?_foldl_push, hempty, List.nil_append]
  clear h hgroups
  induction hsources with
  | nil => rfl
  | @cons file declared _ _ htext _ ih =>
      rw [List.zip_cons_cons, List.filter_cons, List.filter_cons, ← ih, htext]
      by_cases heq : declared = source <;> simp [heq]

theorem mem_declaring_iff (h : ofFiles sourceKey files = .ok index) {source : String}
    {file : BuildFile} :
    file ∈ index.declaring source ↔ file ∈ files ∧ file.text? sourceKey = some source := by
  rw [declaring_of_ofFiles h, List.mem_filter, decide_eq_true_iff]

theorem mem_sourcePaths_iff (h : ofFiles sourceKey files = .ok index) {source : String} :
    source ∈ index.sourcePaths ↔ ∃ file ∈ files, file.text? sourceKey = some source := by
  obtain ⟨sources, hsources, hgroups, -⟩ := exists_sources_of_ofFiles h
  have hkeys : source ∈ index.groups.keys ↔ source ∈ sources := by
    have hzip : (sources.zip files).map Prod.fst = sources :=
      List.map_fst_zip (Nat.le_of_eq hsources.length_eq.symm)
    rw [OrderedMap.mem_keys_iff, hgroups, OrderedMap.get?_foldl_push, hzip]
    split
    case isTrue hmem => simp [hmem]
    case isFalse hmem => simp [hmem]
  rw [sourcePaths, hkeys]
  constructor
  · exact exists_of_mem_of_forall₂ hsources
  · rintro ⟨file, hfile, hsource⟩
    obtain ⟨declared, hdeclared, heq⟩ := exists_of_mem_left_of_forall₂ hsources hfile
    rwa [Option.some.inj (hsource.symm.trans heq)]

theorem declares_iff_mem {source : String} :
    index.declares source = true ↔ source ∈ index.sourcePaths := by
  rw [declares, OrderedMap.contains, Option.isSome_iff_exists, sourcePaths,
    OrderedMap.mem_keys_iff]

theorem exists_first? (h : ofFiles sourceKey files = .ok index) {source : String}
    {file : BuildFile} (hfile : file ∈ files) (hsource : file.text? sourceKey = some source) :
    ∃ origin, index.first? source = some origin := by
  have hmem := (mem_declaring_iff h).mpr ⟨hfile, hsource⟩
  rw [first?]
  cases hdeclaring : index.declaring source with
  | nil =>
      rw [hdeclaring] at hmem
      cases hmem
  | cons origin rest => exact ⟨origin, rfl⟩

theorem atPath?_eq_some_iff (h : ofFiles sourceKey files = .ok index)
    (hpaths : (files.map (·.path.components)).Nodup) {path : Path} {file : BuildFile} :
    index.atPath? path = some file ↔
      file ∈ files ∧ file.path.components = path.components := by
  obtain ⟨-, -, -, hbyPath⟩ := exists_sources_of_ofFiles h
  have hnodup : ((files.map fun file => (file.path.components, file)).reverse.map
      Prod.fst).Nodup := by
    rw [List.map_reverse, List.nodup_reverse, List.map_map]
    exact hpaths
  rw [atPath?, hbyPath, OrderedMap.get?_ofList, Entries.lookup_eq_some_iff_of_nodup hnodup,
    List.mem_reverse, List.mem_map]
  constructor
  · rintro ⟨other, hother, heq⟩
    obtain ⟨hcomponents, rfl⟩ := Prod.mk.inj heq
    exact ⟨hother, hcomponents⟩
  · rintro ⟨hfile, heq⟩
    exact ⟨file, hfile, by rw [heq]⟩

theorem sourceAt?_eq_some_iff (h : ofFiles sourceKey files = .ok index)
    (hpaths : (files.map (·.path.components)).Nodup) {path : Path} {source : String} :
    index.sourceAt? path sourceKey = some source ↔
      ∃ file ∈ files, file.path.components = path.components ∧
        file.text? sourceKey = some source := by
  simp only [sourceAt?, Option.bind_eq_some_iff, atPath?_eq_some_iff h hpaths, and_assoc]

end BuildIndex

end ArtifactAtlas
