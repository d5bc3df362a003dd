import ArtifactAtlas.Proofs.Path.Resolved
import ArtifactAtlas.Proofs.Payload.Sanitize
import Mathlib.Data.List.Nodup

/-!
# The shared directory

The directory that sanitizing takes off is the longest one that leads to all paths of
a payload.  A path that has lost it leads, seen from that directory, to where it led
before, if what is left of it is a text.  Only the directory itself has nothing left to
lead with and keeps its path.
-/

namespace ArtifactAtlas

namespace Path

/-- Whether the way along the path begins with the directory. -/
def LeadsTo (directory path : Path) : Prop :=
  directory.components <+: path.components

/-- The path leads to all of some paths, and so does no longer one. -/
structure IsLongestShared (shared : Path) (paths : List Path) : Prop where
  leads : ∀ path ∈ paths, shared.LeadsTo path
  longest : ∀ other : Path, (∀ path ∈ paths, other.LeadsTo path) → other.LeadsTo shared

theorem IsLongestShared.congr {shared : Path} {paths others : List Path}
    (h : shared.IsLongestShared paths) (hsame : ∀ path, path ∈ paths ↔ path ∈ others) :
    shared.IsLongestShared others where
  leads path hpath := h.leads path ((hsame path).mpr hpath)
  longest other hother := h.longest other fun path hpath => hother path ((hsame path).mp hpath)

theorem LeadsTo.hasName {directory path : Path} (h : directory.LeadsTo path)
    (hname : directory.hasName = true) : path.hasName = true := by
  rw [Path.hasName, List.any_eq_true] at hname ⊢
  obtain ⟨c, hc, hname⟩ := hname
  exact ⟨c, h.subset hc, hname⟩

theorem prefix_commonComponents {components front back : List Component}
    (hfront : components <+: front) (hback : components <+: back) :
    components <+: commonComponents front back := by
  induction components generalizing front back with
  | nil => exact List.nil_prefix
  | cons c rest ih =>
      obtain ⟨front, rfl⟩ := hfront
      obtain ⟨back, rfl⟩ := hback
      rw [List.cons_append, List.cons_append, commonComponents, if_pos rfl,
        List.prefix_cons_inj]
      exact ih (List.prefix_append _ _) (List.prefix_append _ _)

theorem prefix_foldl_commonComponents {components shared : List Component} {paths : List Path}
    (hshared : components <+: shared) (hpaths : ∀ path ∈ paths, components <+: path.components) :
    components <+:
      paths.foldl (fun shared path => commonComponents shared path.components) shared := by
  induction paths generalizing shared with
  | nil => exact hshared
  | cons path rest ih =>
      rw [List.forall_mem_cons] at hpaths
      exact ih (prefix_commonComponents hshared hpaths.1) hpaths.2

theorem isLongestShared_of_common? {paths : List Path} {shared : Path}
    (h : common? paths = some shared) : shared.IsLongestShared paths where
  leads := prefix_of_common? h
  longest other hother := by
    cases paths with
    | nil => cases h
    | cons first rest =>
        rw [List.forall_mem_cons] at hother
        have hprefix := prefix_foldl_commonComponents hother.1 hother.2
        have hfront := foldl_commonComponents_prefix first.components rest
        have hwell := (wellFormed_components first).of_front hfront.1
        rw [common?] at h
        split at h
        case h_1 => cases h
        case h_2 =>
          cases h
          rw [LeadsTo, components_ofComponents hwell]
          exact hprefix

theorem components_eq_nil_of_common? {paths : List Path} (hne : paths ≠ [])
    (h : common? paths = none) {other : Path} (hother : ∀ path ∈ paths, other.LeadsTo path) :
    other.components = [] := by
  cases paths with
  | nil => contradiction
  | cons first rest =>
      rw [List.forall_mem_cons] at hother
      have hprefix := prefix_foldl_commonComponents hother.1 hother.2
      rw [common?] at h
      split at h
      case h_1 heq => exact List.prefix_nil.mp (heq ▸ hprefix)
      case h_2 => cases h

end Path

namespace Payload

variable {payload : Payload} {directory : BytePath} {shared : Path}

/-! ## The paths that are compared -/

/-- The paths of a payload as they are seen from a directory. -/
def seenPaths (payload : Payload) (directory : BytePath) : List Path :=
  payload.namedPaths.map (seen directory)

/-- The paths to find a shared directory of; if they are all one path, that and the
directory it is seen from. -/
def comparedPaths (payload : Payload) (directory : BytePath) : List Path :=
  if ∀ path ∈ payload.seenPaths directory, ∀ other ∈ payload.seenPaths directory,
      path = other then
    directory.toPath :: payload.seenPaths directory
  else payload.seenPaths directory

theorem mem_comparedPaths_of_mem_namedPaths {path : String} (h : path ∈ payload.namedPaths) :
    seen directory path ∈ payload.comparedPaths directory := by
  have hseen : seen directory path ∈ payload.seenPaths directory :=
    List.mem_map_of_mem h
  rw [comparedPaths]
  split
  case isTrue => exact List.mem_cons_of_mem _ hseen
  case isFalse => exact hseen

theorem mem_referencedPaths_iff {path : Path} :
    path ∈ payload.referencedPaths directory ↔ path ∈ payload.seenPaths directory := by
  simp only [referencedPaths, seenPaths, List.mem_map, OrderedSet.mem_keys_ofList,
    exists_exists_and_eq_and, ofComponents_components_seen]
  rfl

theorem nodup_referencedPaths (payload : Payload) (directory : BytePath) :
    (payload.referencedPaths directory).Nodup := by
  rw [referencedPaths]
  refine List.Nodup.map_on ?_ (OrderedMap.nodup_keys _)
  intro components hcomponents others hothers heq
  rw [OrderedSet.mem_keys_ofList, List.mem_map] at hcomponents hothers
  obtain ⟨path, -, rfl⟩ := hcomponents
  obtain ⟨other, -, rfl⟩ := hothers
  rw [ofComponents_components_seen, ofComponents_components_seen] at heq
  rw [heq]

theorem exists_paths_of_sharedDirectory? (directory : BytePath) (hne : payload.namedPaths ≠ []) :
    ∃ paths, paths ≠ [] ∧
      payload.sharedDirectory? directory = (Path.common? paths).filter (·.hasName) ∧
      ∀ path, path ∈ paths ↔ path ∈ payload.comparedPaths directory := by
  have hseen : payload.seenPaths directory ≠ [] := by simpa [seenPaths] using hne
  rw [sharedDirectory?]
  split
  case h_1 only honly =>
    have hall : ∀ path, path ∈ payload.seenPaths directory ↔ path = only := by
      intro path
      rw [← mem_referencedPaths_iff, honly, List.mem_singleton]
    refine ⟨_, List.cons_ne_nil _ _, rfl, fun path => ?_⟩
    rw [comparedPaths, if_pos fun path hpath other hother =>
      ((hall path).mp hpath).trans ((hall other).mp hother).symm]
    simp [hall, or_comm]
  case h_2 hmany =>
    obtain ⟨first, hfirst⟩ := List.exists_mem_of_ne_nil _ hseen
    have hreferenced := mem_referencedPaths_iff.mpr hfirst
    refine ⟨_, List.ne_nil_of_mem hreferenced, rfl, fun path => ?_⟩
    rw [comparedPaths, if_neg, mem_referencedPaths_iff]
    intro hone
    -- there is another path besides the first, although all are one
    obtain hnil | ⟨other, hother, hne⟩ :=
      ((nodup_referencedPaths payload directory).ne_singleton_iff first).mp (hmany first)
    · exact List.ne_nil_of_mem hreferenced hnil
    · exact hne (hone other (mem_referencedPaths_iff.mp hother) first hfirst)

theorem sharedDirectory?_of_namedPaths_eq_nil (h : payload.namedPaths = []) :
    payload.sharedDirectory? directory = none := by
  have hreferenced : payload.referencedPaths directory = [] := by
    apply List.eq_nil_iff_forall_not_mem.mpr
    intro path hpath
    rw [mem_referencedPaths_iff, seenPaths, h] at hpath
    exact List.not_mem_nil hpath
  rw [sharedDirectory?, hreferenced]
  rfl

theorem isLongestShared_of_sharedDirectory?
    (h : payload.sharedDirectory? directory = some shared) :
    shared.IsLongestShared (payload.comparedPaths directory) := by
  have hne : payload.namedPaths ≠ [] := by
    intro hnil
    rw [sharedDirectory?_of_namedPaths_eq_nil hnil] at h
    cases h
  obtain ⟨paths, -, heq, hsame⟩ := exists_paths_of_sharedDirectory? directory hne
  rw [heq, Option.filter_eq_some_iff] at h
  exact (Path.isLongestShared_of_common? h.1).congr hsame

theorem sharedDirectory?_eq_none_iff :
    payload.sharedDirectory? directory = none ↔ payload.namedPaths = [] ∨
      ∀ other : Path, (∀ path ∈ payload.comparedPaths directory, other.LeadsTo path) →
        other.hasName = false := by
  by_cases hne : payload.namedPaths = []
  · simp [hne, sharedDirectory?_of_namedPaths_eq_nil]
  rw [or_iff_right hne]
  obtain ⟨paths, hpaths, heq, hsame⟩ :=
    exists_paths_of_sharedDirectory? directory hne
  constructor
  · intro hnone other hother
    have hother : ∀ path ∈ paths, other.LeadsTo path :=
      fun path hpath => hother path ((hsame path).mp hpath)
    rw [heq, Option.filter_eq_none_iff] at hnone
    cases hcommon : Path.common? paths with
    | none =>
        rw [Path.hasName, Path.components_eq_nil_of_common? hpaths hcommon hother, List.any_nil]
    | some common =>
        have hnameless := hnone common hcommon
        rw [Bool.eq_false_iff]
        intro hname
        exact hnameless (((Path.isLongestShared_of_common? hcommon).longest other hother).hasName
          hname)
  · intro hnameless
    cases hshared : payload.sharedDirectory? directory with
    | none => rfl
    | some shared =>
        have hlongest := isLongestShared_of_sharedDirectory? hshared
        obtain ⟨hname, -⟩ := exists_common?_of_sharedDirectory? hshared
        rw [hnameless shared hlongest.leads] at hname
        cases hname

/-! ## What becomes of a path -/

theorem isName_of_mem_behind (h : payload.sharedDirectory? directory = some shared)
    {path : String} (hleads : shared.components <+: (seen directory path).components) :
    ∀ c ∈ behind directory shared path, c.isName = true := by
  obtain ⟨hname, -⟩ := exists_common?_of_sharedDirectory? h
  exact Path.isName_of_append_absoluteFrom (append_behind hleads) hname

/-- What is written for a path leads on from a directory along the bytes of that text. -/
theorem components_absoluteFrom_of_written
    (h : payload.sharedDirectory? directory = some shared) {path renamed : String}
    (hleads : shared.components <+: (seen directory path).components)
    (hwritten : (Path.mk renamed).components = (behind directory shared path).map (·.written))
    {base : Path} (htrail : Path.Trail base.components.reverse) :
    ((Path.ofText renamed).absoluteFrom base).components =
      base.components ++ ((behind directory shared path).map (·.written)).map (·.encoded) := by
  rw [← hwritten, ← Path.components_ofText]
  apply Path.components_absoluteFrom_of_trail_of_isName htrail
  rw [Path.components_ofText, hwritten, List.forall_mem_map, List.forall_mem_map]
  intro c hc
  rw [Path.Component.isName_encoded, Path.Component.isName_written]
  exact isName_of_mem_behind h hleads c hc

end Payload

end ArtifactAtlas
