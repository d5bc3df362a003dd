import ArtifactAtlas.Artifact.BuildIndex
import ArtifactAtlas.Artifact.CompilerOutput
import ArtifactAtlas.Artifact.IndexTable
import ArtifactAtlas.Proofs.Artifact.BuildIndex
import ArtifactAtlas.Proofs.FileTree.Walks

/-!
# Which file is to blame

What goes wrong with a build file is said of that file, and what goes wrong with a build
directory of the directory.  So when the files lie in the directory, so does what a
failure blames.
-/

namespace ArtifactAtlas

namespace Failure

/-- The file or directory of the build that is to blame. -/
def place? : Failure → Option Path
  | build path _ => some path
  | malformed path _ => some path
  | unreadable path _ => some path
  | _ => none

theorem isBuild_iff {failure : Failure} :
    failure.isBuild = true ↔ ∃ place, failure.place? = some place := by
  cases failure <;> simp [isBuild, place?]

/-- Whether the build is to blame, at some path or below it. -/
def Under (top : Path) (failure : Failure) : Prop :=
  ∃ place, failure.place? = some place ∧ top.Below place

variable {top path : Path}

theorem under_build (h : top.Below path) (defect : BuildDefect) :
    (build path defect).Under top :=
  ⟨path, rfl, h⟩

theorem under_malformed (h : top.Below path) (fault : Json.Fault) :
    (malformed path fault).Under top :=
  ⟨path, rfl, h⟩

theorem under_unreadable (h : top.Below path) (fault : FileTree.Fault) :
    (unreadable path fault).Under top :=
  ⟨path, rfl, h⟩

end Failure

variable {top : Path} {tree : FileTree}

/-! ## Build files -/

namespace BuildFile

theorem path_of_read {path : Path} {file : BuildFile} (h : read tree path = .ok file) :
    file.path = path := by
  rw [read] at h
  split at h
  case h_1 => cases h
  case h_2 =>
    split at h
    case h_1 => cases h
    case h_2 =>
      cases h
      rfl

theorem failsOnly_read (tree : FileTree) {path : Path} (h : top.Below path) :
    FailsOnly (Failure.Under top) (read tree path) := by
  rw [read]
  split
  case h_1 fault _ => exact .error (Failure.under_unreadable h fault)
  case h_2 =>
    split
    case h_1 fault _ => exact .error (Failure.under_malformed h fault)
    case h_2 => exact .ok _

theorem failsOnly_requiredText {file : BuildFile} (h : top.Below file.path) (key : String) :
    FailsOnly (Failure.Under top) (file.requiredText key) := by
  rw [requiredText]
  split
  case h_1 => exact .ok _
  case h_2 => exact .error (Failure.under_build h _)

theorem failsOnly_required {file : BuildFile} (h : top.Below file.path) (key : String) :
    FailsOnly (Failure.Under top) (file.required key) := by
  rw [required]
  split
  case h_1 => exact .ok _
  case h_2 => exact .error (Failure.under_build h _)

theorem within_of_readAll (htree : tree.root.WellFormed) {skip : Path → Bool}
    {files : List BuildFile} (h : readAll tree top skip = .ok files) :
    ∀ file ∈ files, top.Within file.path := by
  intro file hfile
  rw [readAll] at h
  split at h
  case isFalse => cases h
  case isTrue hdirectory =>
    split at h
    case h_1 => cases h
    case h_2 paths hpaths =>
      obtain ⟨path, hpath, hread⟩ := exists_of_mem_of_forall₂ (mapM_eq_ok_iff.mp h) hfile
      rw [path_of_read hread]
      exact FileTree.within_of_mem_jsonFiles htree hdirectory hpaths path hpath

theorem failsOnly_readAll (htree : tree.root.WellFormed) (skip : Path → Bool) :
    FailsOnly (Failure.Under top) (readAll tree top skip) := by
  rw [readAll]
  split
  case isFalse => exact .error (Failure.under_build (.refl _) _)
  case isTrue hdirectory =>
    split
    case h_1 fault _ => exact .error (Failure.under_unreadable (.refl _) fault)
    case h_2 paths hpaths =>
      refine .mapM fun path hpath => failsOnly_read tree ?_
      exact (FileTree.within_of_mem_jsonFiles htree hdirectory hpaths path hpath).below

end BuildFile

/-! ## Build indices -/

namespace BuildIndex

variable {sourceKey : String} {files : List BuildFile} {index : BuildIndex}

theorem mem_files_of_mem_group (h : ofFiles sourceKey files = .ok index) {source : String}
    {group : List BuildFile} (hgroup : (source, group) ∈ index.groups.toList)
    {file : BuildFile} (hfile : file ∈ group) : file ∈ files := by
  have hdeclaring : file ∈ index.declaring source :=
    OrderedMap.mem_group_iff.mpr ⟨group, hgroup, hfile⟩
  exact ((mem_declaring_iff h).mp hdeclaring).1

theorem mem_files_of_first? (h : ofFiles sourceKey files = .ok index) {source : String}
    {file : BuildFile} (hfirst : index.first? source = some file) : file ∈ files :=
  ((mem_declaring_iff h).mp (List.mem_of_head? hfirst)).1

theorem failsOnly_ofFiles (h : ∀ file ∈ files, top.Below file.path) :
    FailsOnly (Failure.Under top) (ofFiles sourceKey files) := by
  rw [ofFiles]
  refine .bind (.mapM fun file hfile => ?_) fun _ _ => .pure _
  exact BuildFile.failsOnly_requiredText (h file hfile) sourceKey

theorem failsOnly_load (htree : tree.root.WellFormed) (sourceKey : String)
    (skip : Path → Bool) : FailsOnly (Failure.Under top) (load tree top sourceKey skip) := by
  rw [load]
  refine .bind (BuildFile.failsOnly_readAll htree skip) fun files hfiles => ?_
  have hwithin := BuildFile.within_of_readAll htree hfiles
  dsimp only
  split
  case isTrue => exact .throw_bind (Failure.under_build (.refl _) _) _
  case isFalse => exact failsOnly_ofFiles fun file hfile => (hwithin file hfile).below

theorem exists_files_of_load (htree : tree.root.WellFormed) {skip : Path → Bool}
    (h : load tree top sourceKey skip = .ok index) :
    ∃ files, ofFiles sourceKey files = .ok index ∧ ∀ file ∈ files, top.Within file.path := by
  rw [load, bind_eq_ok_iff] at h
  obtain ⟨files, hfiles, h⟩ := h
  dsimp only at h
  split at h
  case isTrue => cases h
  case isFalse => exact ⟨files, h, BuildFile.within_of_readAll htree hfiles⟩

end BuildIndex

/-! ## Source lists and contracts -/

namespace SourceList

theorem failsOnly_ofTable {origin : Path} (h : top.Below origin) (table : List (Nat × String)) :
    FailsOnly (Failure.Under top) (ofTable origin table) := by
  rw [ofTable]
  refine .foldlM table (fun list (index, path) => ?_) []
  dsimp only
  split
  case isTrue => exact .error (Failure.under_build h _)
  case isFalse => exact .ok _

theorem failsOnly_ofOutput {origin : Path} (h : top.Below origin) (sources : Json) :
    FailsOnly (Failure.Under top) (ofOutput origin sources) := by
  rw [ofOutput.eq_def]
  split
  case h_1 =>
    split
    case h_1 table _ =>
      split
      case isTrue => exact failsOnly_ofTable h table
      case isFalse => exact .ok _
    case h_2 => exact .ok _
  case h_2 => exact .ok _

end SourceList

namespace CompilerOutput

theorem failsOnly_contract {origin : Path} (h : top.Below origin) (name source : String)
    (data : Json) (sourceList : SourceList) :
    FailsOnly (Failure.Under top) (contract origin name source data sourceList) := by
  rw [contract]
  dsimp only
  refine .bind ?_ fun _ _ => .bind ?_ fun _ _ => .bind ?_ fun _ _ => .bind ?_ fun _ _ => .pure _
  all_goals
    split
    case h_1 => exact .ok _
    case h_2 => exact .error (Failure.under_build h _)

end CompilerOutput

end ArtifactAtlas
