import ArtifactAtlas.Proofs.Artifact.BuildIndex

/-!
# Groups of build files

An index is made in one go over the files, or the first file that declares no source is to
blame.  The groups of the declared sources have each file once, in the order of the files,
and under a path there is the last file that has it.
-/

namespace ArtifactAtlas

/-- Items that each have one of some keys come in groups, one for each key. -/
theorem perm_flatMap_filter {α κ : Type} [DecidableEq κ] {keys : List κ} (hkeys : keys.Nodup)
    (keyOf : α → Option κ) {items : List α}
    (hitems : ∀ item ∈ items, ∃ key ∈ keys, keyOf item = some key) :
    (keys.flatMap fun key => items.filter (keyOf · = some key)).Perm items := by
  induction keys generalizing items with
  | nil =>
      have hempty : items = [] := List.eq_nil_iff_forall_not_mem.mpr fun item hmem => by
        obtain ⟨_, hkey, -⟩ := hitems item hmem
        cases hkey
      rw [hempty]
      exact .refl _
  | cons key rest ih =>
      obtain ⟨hfirst, hrest⟩ := List.nodup_cons.mp hkeys
      have hothers : ∀ item ∈ items.filter fun item => !decide (keyOf item = some key),
          ∃ other ∈ rest, keyOf item = some other := by
        intro item hmem
        obtain ⟨hitem, hne⟩ := List.mem_filter.mp hmem
        obtain ⟨other, hother, heq⟩ := hitems item hitem
        rcases List.mem_cons.mp hother with rfl | hother
        · simp [heq] at hne
        · exact ⟨other, hother, heq⟩
      -- the files of another key are none of those that the first key takes
      have hgroups : ∀ other ∈ rest, items.filter (keyOf · = some other) =
          (items.filter fun item => !decide (keyOf item = some key)).filter
            (keyOf · = some other) := by
        intro other hother
        rw [List.filter_filter]
        refine List.filter_congr fun item _ => ?_
        have hne : other ≠ key := fun heq => hfirst (heq ▸ hother)
        by_cases heq : keyOf item = some other <;> simp [heq, hne]
      rw [List.flatMap_cons, List.flatMap_congr hgroups]
      exact ((ih hrest hothers).append_left _).trans (List.filter_append_perm _ items)

theorem BuildFile.requiredText_eq_error_iff {file : BuildFile} {key : String}
    {failure : Failure} :
    file.requiredText key = .error failure ↔
      file.text? key = none ∧ failure = .build file.path (.missingKey key) := by
  rw [requiredText]
  cases file.text? key <;> simp [eq_comm]

namespace BuildIndex

variable {sourceKey : String} {files : List BuildFile} {index : BuildIndex}

theorem ofFiles_eq_error_iff {failure : Failure} :
    ofFiles sourceKey files = .error failure ↔ ∃ front file back, files = front ++ file :: back ∧
      (∀ earlier ∈ front, ∃ source, earlier.text? sourceKey = some source) ∧
      file.text? sourceKey = none ∧ failure = .build file.path (.missingKey sourceKey) := by
  rw [ofFiles, bind_eq_error_iff, or_iff_left]
  · simp only [mapM_eq_error_iff, BuildFile.requiredText_eq_ok_iff,
      BuildFile.requiredText_eq_error_iff]
  · rintro ⟨_, -, h⟩
    cases h

theorem exists_ofFiles_iff : (∃ index, ofFiles sourceKey files = .ok index) ↔
    ∀ file ∈ files, ∃ source, file.text? sourceKey = some source :=
  ⟨fun ⟨_, h⟩ _ hfile => exists_text?_of_ofFiles h hfile, exists_ofFiles⟩

theorem perm_flatMap_declaring (h : ofFiles sourceKey files = .ok index) :
    (index.sourcePaths.flatMap index.declaring).Perm files := by
  have hdeclaring : index.declaring = fun source =>
      files.filter (·.text? sourceKey = some source) := funext (declaring_of_ofFiles h)
  rw [hdeclaring]
  refine perm_flatMap_filter index.groups.nodup_keys (BuildFile.text? · sourceKey)
    fun file hfile => ?_
  obtain ⟨source, hsource⟩ := exists_text?_of_ofFiles h hfile
  exact ⟨source, (mem_sourcePaths_iff h).mpr ⟨file, hfile, hsource⟩, hsource⟩

theorem first?_of_ofFiles (h : ofFiles sourceKey files = .ok index) (source : String) :
    index.first? source = files.find? (·.text? sourceKey = some source) := by
  rw [first?, declaring_of_ofFiles h, List.head?_filter]

theorem atPath?_of_ofFiles (h : ofFiles sourceKey files = .ok index) (path : Path) :
    index.atPath? path = (files.filter (·.path.components = path.components)).getLast? := by
  obtain ⟨-, -, -, hbyPath⟩ := exists_sources_of_ofFiles h
  rw [atPath?, hbyPath, OrderedMap.get?_ofList, Entries.lookup_reverse, List.filter_map,
    List.getLast?_map, Option.map_map]
  exact Option.map_id'

/--
An index is made exactly if all files declare a source; else the first that does not is to
blame.  The declared sources come in order, each with the files that declare it as they came
and the earliest as its first, and together these are all files, each once.  Under a path
there is the last file of that path, with what it declares.
-/
theorem ofFiles_groups_files_or_blames_first (sourceKey : String) (files : List BuildFile) :
    ((∃ index, ofFiles sourceKey files = .ok index) ↔
      ∀ file ∈ files, ∃ source, file.text? sourceKey = some source) ∧
    (∀ failure, ofFiles sourceKey files = .error failure ↔
      ∃ front file back, files = front ++ file :: back ∧
        (∀ earlier ∈ front, ∃ source, earlier.text? sourceKey = some source) ∧
        file.text? sourceKey = none ∧ failure = .build file.path (.missingKey sourceKey)) ∧
    ∀ index, ofFiles sourceKey files = .ok index →
      (index.sourcePaths.Pairwise (· < ·) ∧ ∀ source, source ∈ index.sourcePaths ↔
        ∃ file ∈ files, file.text? sourceKey = some source) ∧
      (∀ source, index.declaring source = files.filter (·.text? sourceKey = some source) ∧
        index.first? source = files.find? (·.text? sourceKey = some source)) ∧
      (index.sourcePaths.flatMap index.declaring).Perm files ∧
      ∀ path, index.atPath? path =
          (files.filter (·.path.components = path.components)).getLast? ∧
        ∀ key, index.sourceAt? path key =
          (files.filter (·.path.components = path.components)).getLast?.bind (·.text? key) := by
  refine ⟨exists_ofFiles_iff, fun _ => ofFiles_eq_error_iff, fun index h => ?_⟩
  refine ⟨⟨index.groups.pairwise_keys, fun _ => mem_sourcePaths_iff h⟩,
    fun source => ⟨declaring_of_ofFiles h source, first?_of_ofFiles h source⟩,
    perm_flatMap_declaring h, fun path => ⟨atPath?_of_ofFiles h path, fun key => ?_⟩⟩
  rw [sourceAt?, atPath?_of_ofFiles h]

end BuildIndex

end ArtifactAtlas
