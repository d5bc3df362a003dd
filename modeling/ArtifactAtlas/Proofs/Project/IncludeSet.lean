import ArtifactAtlas.Project.IncludeSet
import ArtifactAtlas.Proofs.FileTree.Sources
import ArtifactAtlas.Proofs.Path.Course

/-!
# What include sets include

An include set has places, and a source path is included if it leads to one of them and
does not climb at the root an odd number of times.  The set of some targets has the files
that the targets stand for.
-/

namespace ArtifactAtlas

open ArtifactAtlas.Path (Component)

namespace IncludeSet

theorem includes_only_iff {files : OrderedSet (List Component)} {source : String}
    {directory : Path} :
    (only files).includes source directory = true ↔
      ((Path.mk source).absoluteFrom directory).components ∈ files.keys := by
  rw [includes, OrderedMap.contains, Option.isSome_iff_exists, OrderedMap.mem_keys_iff]

/-! ## Spellings of source paths -/

/--
A source path is included exactly if the place that it leads to is and it climbs at the
root an even number of times.  So of two paths that lead to one place either both are
included or none is, unless the place is in the set and only one of them is left with two
dots at the root.
-/
theorem only_includes_places_reached_by_even_climbs {directory : Path}
    (hdirectory : directory.isAbsolute = true) {files : OrderedSet (List Component)}
    (hplain : ∀ file ∈ files.keys, ∃ names : List String, file = .root :: names.map .name) :
    (∀ source, (only files).includes source directory = true ↔
      (Path.mk source).placeFrom directory ∈ files.keys ∧
        Even ((Path.mk source).climbsAtRoot directory)) ∧
    ∀ source other, (Path.mk source).placeFrom directory = (Path.mk other).placeFrom directory →
      ((only files).includes source directory = (only files).includes other directory ↔
        ((Path.mk source).placeFrom directory ∈ files.keys →
          (Even ((Path.mk source).climbsAtRoot directory) ↔
            Even ((Path.mk other).climbsAtRoot directory)))) := by
  have hincludes : ∀ source, (only files).includes source directory = true ↔
      (Path.mk source).placeFrom directory ∈ files.keys ∧
        Even ((Path.mk source).climbsAtRoot directory) := by
    intro source
    rw [includes_only_iff]
    constructor
    · intro hmem
      obtain ⟨names, hnames⟩ := hplain _ hmem
      obtain ⟨hplace, heven⟩ :=
        (Path.components_absoluteFrom_eq_names_iff hdirectory).mp hnames
      exact ⟨by rwa [hplace, ← hnames], heven⟩
    · rintro ⟨hmem, heven⟩
      rwa [(Path.components_absoluteFrom_eq_names_iff hdirectory).mpr ⟨rfl, heven⟩]
  refine ⟨hincludes, fun source other hplace => ?_⟩
  rw [Bool.eq_iff_iff, hincludes, hincludes, ← hplace]
  exact and_congr_right_iff

/-- The include set of one file. -/
def oneFile : OrderedSet (List Component) :=
  .ofList [[.root, .name "p", .name "A.sol"]]

/-- Two spellings that climb twice and not at all are both included. -/
theorem oneFile_includes_both_spellings :
    (Path.mk "/p/q").isAbsolute = true ∧
    (∀ file ∈ oneFile.keys, ∃ names : List String, file = .root :: names.map .name) ∧
    (only oneFile).includes "../../../../p/./A.sol" ⟨"/p/q"⟩ = true ∧
    (only oneFile).includes "x/../../A.sol" ⟨"/p/q"⟩ = true := by
  have hplain : ∀ file ∈ oneFile.keys, ∃ names : List String,
      file = .root :: names.map .name := by
    have hkeys : oneFile.keys = [.root :: ["p", "A.sol"].map .name] := by decide
    simp only [hkeys, List.mem_singleton, forall_eq]
    exact ⟨_, rfl⟩
  have hdirectory : (Path.mk "/p/q").isAbsolute = true := by decide
  obtain ⟨hincludes, hsame⟩ := only_includes_places_reached_by_even_climbs hdirectory hplain
  have hfirst := (hincludes "../../../../p/./A.sol").mpr (by decide)
  refine ⟨hdirectory, hplain, hfirst, ?_⟩
  rw [← (hsame "../../../../p/./A.sol" "x/../../A.sol" (by decide)).mpr (by decide), hfirst]

/-- Two spellings of one place, of which the one that climbs once at the root is missed. -/
theorem oneFile_misses_climb_at_root :
    (Path.mk "/").isAbsolute = true ∧
    oneFile.keys = [.root :: ["p", "A.sol"].map .name] ∧
    (Path.mk "/../p/A.sol").placeFrom ⟨"/"⟩ = (Path.mk "/p/A.sol").placeFrom ⟨"/"⟩ ∧
    (Path.mk "/../p/A.sol").placeFrom ⟨"/"⟩ ∈ oneFile.keys ∧
    (only oneFile).includes "/p/A.sol" ⟨"/"⟩ = true ∧
    (only oneFile).includes "/../p/A.sol" ⟨"/"⟩ = false := by
  decide

/-! ## The set of targets -/

variable {tree : FileTree} {targets : List Path} {directory : Path}

theorem ofTargets_of_ne_nil (tree : FileTree) (hne : targets ≠ []) (directory : Path) :
    ofTargets tree targets directory =
      .only (OrderedSet.ofList ((targets.flatMap fun target =>
        tree.solidityFiles (target.absoluteFrom directory)).map fun file =>
          (file.absoluteFrom directory).components)) := by
  rw [ofTargets, if_neg (by simpa using hne)]

/-- The files of a set of places, in order, are those that sources lead to if they are included. -/
theorem exists_files?_of_only {files : OrderedSet (List Component)}
    (hplaces : ∀ file ∈ files.keys, ∃ path : Path, (path.absoluteFrom directory).components = file) :
    ∃ paths : List Path, (only files).files? = some (paths.map (·.text)) ∧
      paths.Pairwise (fun path next => path.components < next.components) ∧
      ∀ path, path ∈ paths ↔ ∃ source, (only files).includes source directory = true ∧
        path = (Path.mk source).absoluteFrom directory := by
  have hplain : ∀ file ∈ files.keys, (Path.ofComponents file).components = file := by
    intro file hfile
    obtain ⟨path, rfl⟩ := hplaces file hfile
    rw [Path.ofComponents_components_absoluteFrom]
  refine ⟨files.keys.map Path.ofComponents, by simp [files?], ?_, fun path => ?_⟩
  · rw [List.pairwise_map]
    refine files.pairwise_keys.imp_of_mem fun hfile hnext hlt => ?_
    rwa [hplain _ hfile, hplain _ hnext]
  · simp only [List.mem_map, includes_only_iff]
    constructor
    · rintro ⟨file, hfile, rfl⟩
      obtain ⟨path, rfl⟩ := hplaces file hfile
      exact ⟨path.text, hfile, Path.ofComponents_components_absoluteFrom path directory⟩
    · rintro ⟨source, hfile, rfl⟩
      exact ⟨_, hfile, Path.ofComponents_components_absoluteFrom _ directory⟩

theorem ofTargets_of_missing {front back : List Path} {target : Path}
    (hmissing : tree.node? (target.absoluteFrom directory) = none) (hne : front ++ back ≠ []) :
    ofTargets tree (front ++ back) directory =
      ofTargets tree (front ++ target :: back) directory := by
  have hnone : tree.solidityFiles (target.absoluteFrom directory) = [] := by
    simp [FileTree.solidityFiles, hmissing]
  rw [ofTargets_of_ne_nil tree hne, ofTargets_of_ne_nil tree (by simp)]
  simp [hnone]

section

variable (htree : tree.root.WellFormed) (hdirectory : directory.isAbsolute = true)

include htree hdirectory

/-- The sources of a target are resolved paths, like the target. -/
theorem components_absoluteFrom_of_mem_solidityFiles {target file : Path}
    (hfile : file ∈ tree.solidityFiles (target.absoluteFrom directory)) :
    (file.absoluteFrom directory).components = file.components := by
  have hroot := Path.components_absoluteFrom_eq_kept hdirectory target
  have htrail : Path.Trail (target.absoluteFrom directory).components.reverse := by
    rw [Path.components_absoluteFrom]
    exact Path.trail_resolveDots (Path.wellFormed_components _)
  have hstands := (FileTree.exists_mem_solidityFiles_iff htree
    (Path.isAbsolute_of_root_mem (by simp [hroot]))).mp ⟨file, hfile, rfl⟩
  obtain ⟨names, hnames⟩ : ∃ names : List String,
      file.components = (target.absoluteFrom directory).components ++ names.map .name := by
    rcases hstands with ⟨-, hsame⟩ | ⟨-, -, hbelow, -, -⟩
    · exact ⟨[], by simpa using hsame⟩
    · exact ⟨_, hbelow⟩
  apply Path.components_absoluteFrom_of_trail
  · apply Path.isAbsolute_of_root_mem
    simp [hnames, hroot]
  · rw [hnames, List.reverse_append]
    exact htrail.append_names (by simp [Component.isName])

theorem includes_ofTargets_iff (hne : targets ≠ []) (source : String) :
    (ofTargets tree targets directory).includes source directory = true ↔
      ∃ target ∈ targets, tree.StandsFor (target.absoluteFrom directory)
        ((Path.mk source).absoluteFrom directory) := by
  have habsolute : ∀ target : Path, (target.absoluteFrom directory).isAbsolute = true := by
    intro target
    apply Path.isAbsolute_of_root_mem
    simp [Path.components_absoluteFrom_eq_kept hdirectory target]
  rw [ofTargets_of_ne_nil tree hne, includes_only_iff, OrderedSet.mem_keys_ofList]
  simp only [List.mem_map, List.mem_flatMap,
    ← FileTree.exists_mem_solidityFiles_iff htree (habsolute _)]
  constructor
  · rintro ⟨file, ⟨target, htarget, hfile⟩, hsame⟩
    rw [components_absoluteFrom_of_mem_solidityFiles htree hdirectory hfile] at hsame
    exact ⟨target, htarget, file, hfile, hsame⟩
  · rintro ⟨target, htarget, file, hfile, hsame⟩
    refine ⟨file, ⟨target, htarget, hfile⟩, ?_⟩
    rw [components_absoluteFrom_of_mem_solidityFiles htree hdirectory hfile, hsame]

/--
A source is included exactly if some target stands for the file that it leads to: the
target is that file, or a directory above it, and then the file is a `.sol` file with no
directory of installed packages on the way down, the target's own included.  Targets that
are not there add nothing.  The files of the set are those of the included sources, each
once and in order.
-/
theorem ofTargets_has_files_that_targets_stand_for (hne : targets ≠ []) :
    (∀ source, (ofTargets tree targets directory).includes source directory = true ↔
      ∃ target ∈ targets, tree.StandsFor (target.absoluteFrom directory)
        ((Path.mk source).absoluteFrom directory)) ∧
    (∀ front target back, targets = front ++ target :: back →
      tree.node? (target.absoluteFrom directory) = none → front ++ back ≠ [] →
      ofTargets tree (front ++ back) directory = ofTargets tree targets directory) ∧
    ∃ paths : List Path,
      (ofTargets tree targets directory).files? = some (paths.map (·.text)) ∧
      paths.Pairwise (fun path next => path.components < next.components) ∧
      ∀ path, path ∈ paths ↔ ∃ source,
        (ofTargets tree targets directory).includes source directory = true ∧
          path = (Path.mk source).absoluteFrom directory := by
  refine ⟨includes_ofTargets_iff htree hdirectory hne, ?_, ?_⟩
  · rintro front target back rfl hmissing hrest
    exact ofTargets_of_missing hmissing hrest
  · rw [ofTargets_of_ne_nil tree hne]
    refine exists_files?_of_only fun file hfile => ?_
    rw [OrderedSet.mem_keys_ofList, List.mem_map] at hfile
    obtain ⟨path, -, hpath⟩ := hfile
    exact ⟨path, hpath⟩

end

/-- Two contracts, one of them in a directory of installed packages, and a text. -/
def nestedProject : FileTree :=
  let file := FileTree.Node.file .empty
  { root := .directory [("p", .directory [
      ("A.sol", file),
      ("README", file),
      ("src", .directory [
        (".sol", file),
        ("B.sol", file),
        ("node_modules", .directory [("C.sol", file)])])])] }

/-- A directory that is spelled with dots, a file without the extension, and one not there. -/
def mixedTargets : List Path :=
  [⟨"src/../src"⟩, ⟨"README"⟩, ⟨"gone"⟩]

theorem nestedProject_has_files_of_mixedTargets :
    nestedProject.root.WellFormed ∧ (Path.mk "/p").isAbsolute = true ∧ mixedTargets ≠ [] ∧
    (∃ target ∈ mixedTargets, nestedProject.StandsFor (target.absoluteFrom ⟨"/p"⟩)
      ((Path.mk "/p/./src/B.sol").absoluteFrom ⟨"/p"⟩)) ∧
    (¬ ∃ target ∈ mixedTargets, nestedProject.StandsFor (target.absoluteFrom ⟨"/p"⟩)
      ((Path.mk "src/node_modules/C.sol").absoluteFrom ⟨"/p"⟩)) ∧
    (ofTargets nestedProject mixedTargets ⟨"/p"⟩).files? =
      some ["/p/README", "/p/src/B.sol"] := by
  have htree : nestedProject.root.WellFormed := by decide +kernel
  have hne : mixedTargets ≠ [] := by simp [mixedTargets]
  have hfiles : ((mixedTargets.flatMap fun target =>
      nestedProject.solidityFiles (target.absoluteFrom ⟨"/p"⟩)).map fun file =>
        (file.absoluteFrom ⟨"/p"⟩).components) =
      [[.root, .name "p", .name "src", .name "B.sol"], [.root, .name "p", .name "README"]] := by
    decide +kernel
  have hdirectory : (Path.mk "/p").isAbsolute = true := by decide
  obtain ⟨hincludes, -, -⟩ := ofTargets_has_files_that_targets_stand_for htree hdirectory hne
  rw [ofTargets_of_ne_nil _ hne, hfiles] at hincludes ⊢
  refine ⟨htree, hdirectory, hne, (hincludes _).mp (by decide +kernel), ?_, by decide +kernel⟩
  rw [← hincludes]
  decide +kernel

end IncludeSet

end ArtifactAtlas
