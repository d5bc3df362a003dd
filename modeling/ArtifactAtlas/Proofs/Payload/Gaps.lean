import ArtifactAtlas.Proofs.Payload.KeptSources
import ArtifactAtlas.Proofs.Payload.SourcePaths

/-!
# Gaps

An empty path stands for a file that is not there.  Sanitizing leaves the gaps on source
lists alone and makes none, so a job keeps its file indices.  A main source or a key that
is empty is seen as the directory that all paths are seen from, though, and is given a
path if that directory lies below the one that is taken off.
-/

namespace ArtifactAtlas

theorem Path.absoluteFrom_empty (directory : Path) :
    (Path.ofText "").absoluteFrom directory = directory.normalize := by
  have hrelative : (Path.mk "").isAbsolute = false := rfl
  have hempty : Path.ofText "" = ⟨""⟩ := by decide +kernel
  rw [hempty, absoluteFrom, normalize, normalize, resolveDots_join hrelative, components_empty,
    List.append_nil]

namespace Payload

variable {payload : Payload} {directory : BytePath} {shared : Path}

/-- The directory that paths are seen from lies below the one that is taken off. -/
def SeenFromBelow (payload : Payload) (directory : BytePath) : Prop :=
  ∃ shared, (payload.sanitize directory).1 = some shared ∧
    shared.LeadsTo directory.toPath.normalize ∧ directory.toPath.normalize ≠ shared

theorem seenFromBelow_iff (h : payload.sharedDirectory? directory = some shared) :
    payload.SeenFromBelow directory ↔ (stripped? directory shared "").isSome := by
  rw [isSome_stripped?_iff h, seen, Path.absoluteFrom_empty, SeenFromBelow,
    sanitize_of_sharedDirectory? h]
  simp [Path.LeadsTo]

theorem sanitizedPath_eq_empty_iff {path : String} :
    payload.sanitizedPath directory path = "" ↔
      path = "" ∧ ¬ payload.SeenFromBelow directory := by
  cases h : payload.sharedDirectory? directory with
  | none => simp [sanitizedPath, SeenFromBelow, sanitize, h]
  | some shared =>
      simp only [sanitizedPath, h, seenFromBelow_iff h]
      by_cases hempty : path = ""
      · subst hempty
        rw [and_iff_right rfl, stripPath]
        cases hstripped : stripped? directory shared "" with
        | none => simp
        | some stripped => simpa using stripped?_ne_empty hstripped
      · simp [hempty, stripPath_ne_empty hempty]

theorem sanitizedPath_ne_empty {path : String} (hne : path ≠ "") :
    payload.sanitizedPath directory path ≠ "" :=
  fun hempty => hne (sanitizedPath_eq_empty_iff.mp hempty).1

/-- On a list only what is not a gap is renamed. -/
theorem listed_eq_empty_iff (path : String) :
    (if path = "" then path else payload.sanitizedPath directory path) = "" ↔ path = "" := by
  split
  case isTrue hempty => simp [hempty]
  case isFalse hne => simp [hne, sanitizedPath_ne_empty hne]

theorem keys_sourcePaths_sanitizedContract (contract : Contract) :
    (jobContract (payload.sanitizedContract directory contract)).sourcePaths.keys =
      (jobContract contract).sourcePaths.keys := by
  rw [OrderedMap.keys, OrderedMap.keys, toList_sourcePaths, toList_sourcePaths,
    sanitizedContract, SourceList.map_fst_placed_map listed_eq_empty_iff]

/--
Sanitizing fills no gap on a source list and makes none, so a job has the same file
indices before and after.  A main source or a key is empty afterwards exactly if it was
before and the directory that is taken off does not lie above the one that paths are
seen from.
-/
theorem sanitize_fills_no_gap_unless_seen_from_below (payload : Payload) (directory : BytePath) :
    List.Forall₂ (fun contract renamed =>
        List.Forall₂ (fun path newPath => newPath = "" ↔ path = "")
          contract.sourceList renamed.sourceList ∧
        (renamed.mainSource = "" ↔
          contract.mainSource = "" ∧ ¬ payload.SeenFromBelow directory))
      payload.contracts (payload.sanitize directory).2.contracts ∧
    List.Forall₂ (fun compiled renamed =>
        renamed.sourcePaths.keys = compiled.sourcePaths.keys)
      payload.job.contracts (payload.sanitize directory).2.job.contracts ∧
    (∀ key, key ∈ (payload.sanitize directory).2.sources.keys ↔
      ∃ path ∈ payload.sources.keys, payload.sanitizedPath directory path = key) ∧
    ∀ path, payload.sanitizedPath directory path = "" ↔
      path = "" ∧ ¬ payload.SeenFromBelow directory := by
  refine ⟨?_, ?_, fun key => mem_keys_sources_sanitize, fun path => sanitizedPath_eq_empty_iff⟩
  · rw [contracts_sanitize, List.forall₂_map_right_iff, List.forall₂_same]
    intro contract _
    refine ⟨?_, sanitizedPath_eq_empty_iff⟩
    rw [sanitizedContract, List.forall₂_map_right_iff, List.forall₂_same]
    exact fun path _ => listed_eq_empty_iff path
  · rw [job, job, contracts_sanitize, List.map_map, List.forall₂_map_left_iff,
      List.forall₂_map_right_iff, List.forall₂_same]
    exact fun contract _ => keys_sourcePaths_sanitizedContract contract

/-- A contract whose main source has no path, and a source without one. -/
def unnamedMain : Artifacts where
  contracts := .ofList [("", [⟨"A", "60", "60", "0:1:0", "0:1:0",
    ["/p/A.sol", "", "/p/B.sol"], ""⟩])]
  sources := .ofList [
    ("", ⟨"", "contract A \x7b\x7d", .null, none, none, none⟩),
    ("/p/A.sol", ⟨"/p/A.sol", "library A \x7b\x7d", .null, none, none, none⟩),
    ("/p/B.sol", ⟨"/p/B.sol", "library B \x7b\x7d", .null, none, none, none⟩)]
  solcVersion := none

/-- The main source is given the path of the directory that paths are seen from. -/
theorem unnamedMain_is_given_path :
    (assemble unnamedMain).contracts.map (·.mainSource) = [""] ∧
    ((assemble unnamedMain).sanitize (.ofText "/p/q")).1 = some ⟨"/p"⟩ ∧
    ((assemble unnamedMain).sanitize (.ofText "/p/q")).2.contracts.map (·.mainSource) = ["q"] ∧
    ¬ List.Forall₂ (fun contract renamed =>
        renamed.mainSource = "" ↔ contract.mainSource = "")
      (assemble unnamedMain).contracts
      ((assemble unnamedMain).sanitize (.ofText "/p/q")).2.contracts := by
  decide +kernel

end Payload

end ArtifactAtlas
