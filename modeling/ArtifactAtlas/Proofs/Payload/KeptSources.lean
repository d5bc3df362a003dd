import ArtifactAtlas.Proofs.Payload.Requests
import ArtifactAtlas.Proofs.Payload.SharedDirectory

/-!
# Sources that sanitizing keeps

The sources of a payload are entered under their new paths, and of those that get one
path the last one stays.  So no source is lost exactly when all new paths differ, and
they differ unless a path comes in two spellings or leads to the shared directory.
-/

namespace ArtifactAtlas

namespace Payload

variable {payload : Payload} {directory : BytePath} {shared : Path}

/-- No source is lost: the texts are the same, and each entry of a list that had a text
still has it. -/
structure KeepsSources (before after : Payload) : Prop where
  size : after.sources.size = before.sources.size
  texts : (after.sources.values.map (·.source)).Perm (before.sources.values.map (·.source))
  entries :
    List.Forall₂ (fun contract renamed =>
      List.Forall₂ (fun path newPath =>
          ∀ text, before.sourceText? path = some text → after.sourceText? newPath = some text)
        contract.sourceList renamed.sourceList)
      before.contracts after.contracts

def sanitizedPath (payload : Payload) (directory : BytePath) (path : String) : String :=
  match payload.sharedDirectory? directory with
  | none => path
  | some shared => stripPath directory shared path

def sanitizedRecord (payload : Payload) (directory : BytePath) (path : String)
    (record : SourceRecord) : SourceRecord :=
  match payload.sharedDirectory? directory with
  | none => record
  | some shared => stripRecord directory shared (stripPath directory shared path) record

@[simp] theorem source_sanitizedRecord (payload : Payload) (directory : BytePath) (path : String)
    (record : SourceRecord) :
    (payload.sanitizedRecord directory path record).source = record.source := by
  rw [sanitizedRecord]
  split <;> rfl

theorem sources_sanitize (payload : Payload) (directory : BytePath) :
    (payload.sanitize directory).2.sources =
      .ofList (payload.sources.toList.map fun entry =>
        (payload.sanitizedPath directory entry.1,
          payload.sanitizedRecord directory entry.1 entry.2)) := by
  cases h : payload.sharedDirectory? directory with
  | none =>
      simp only [sanitize, sanitizedPath, sanitizedRecord, h, List.map_id',
        OrderedMap.ofList_toList]
  | some shared => simp only [sanitize, sanitizedPath, sanitizedRecord, h, sources_strip]

theorem mem_keys_sources_sanitize {key : String} :
    key ∈ (payload.sanitize directory).2.sources.keys ↔
      ∃ path ∈ payload.sources.keys, payload.sanitizedPath directory path = key := by
  rw [sources_sanitize]
  exact OrderedMap.mem_keys_ofList_rename _ _ (payload.sanitizedRecord directory)

/-- A contract with its paths as sanitizing leaves them. -/
def sanitizedContract (payload : Payload) (directory : BytePath) (contract : Contract) : Contract :=
  { contract with
    sourceList := contract.sourceList.map fun path =>
      if path = "" then path else payload.sanitizedPath directory path
    mainSource := payload.sanitizedPath directory contract.mainSource }

theorem contracts_sanitize (payload : Payload) (directory : BytePath) :
    (payload.sanitize directory).2.contracts =
      payload.contracts.map (payload.sanitizedContract directory) := by
  cases h : payload.sharedDirectory? directory with
  | none =>
      have hsame : payload.sanitizedContract directory = id := by
        funext contract
        simp [sanitizedContract, sanitizedPath, h]
      rw [sanitize, h, hsame, List.map_id]
  | some shared =>
      rw [sanitize_of_sharedDirectory? h, strip]
      exact List.map_congr_left fun contract _ => by
        simp only [stripContract, sanitizedContract, sanitizedPath, h]

theorem sourceLists_sanitize (payload : Payload) (directory : BytePath) :
    List.Forall₂ (fun contract renamed =>
        renamed.sourceList = contract.sourceList.map fun path =>
          if path = "" then path else payload.sanitizedPath directory path)
      payload.contracts (payload.sanitize directory).2.contracts := by
  rw [contracts_sanitize, List.forall₂_map_right_iff, List.forall₂_same]
  exact fun contract _ => rfl

/-! ## What is left under a path -/

theorem sourceText?_sanitize (payload : Payload) (directory : BytePath) (path : String) :
    (payload.sanitize directory).2.sourceText? path =
      ((payload.sources.toList.filter fun entry =>
        payload.sanitizedPath directory entry.1 = path).getLast?).map (·.2.source) := by
  rw [sourceText?, sources_sanitize, OrderedMap.get?_ofList, Entries.lookup_reverse,
    List.filter_map, List.getLast?_map, Option.map_map, Option.map_map]
  congr 1
  funext entry
  exact source_sanitizedRecord _ _ _ _

theorem size_sanitize_eq_iff :
    (payload.sanitize directory).2.sources.size = payload.sources.size ↔
      (payload.sources.keys.map (payload.sanitizedPath directory)).Nodup := by
  have hsize : payload.sources.size = (payload.sources.toList.map fun entry =>
      (payload.sanitizedPath directory entry.1,
        payload.sanitizedRecord directory entry.1 entry.2)).length := by
    rw [List.length_map, OrderedMap.size]
  rw [sources_sanitize, hsize, OrderedMap.size_ofList_eq_iff, OrderedMap.keys, List.map_map,
    List.map_map]
  rfl

section

variable (hapart : (payload.sources.keys.map (payload.sanitizedPath directory)).Nodup)

include hapart

theorem perm_texts_sanitize :
    ((payload.sanitize directory).2.sources.values.map (·.source)).Perm
      (payload.sources.values.map (·.source)) := by
  rw [OrderedMap.keys, List.map_map] at hapart
  rw [sources_sanitize, OrderedMap.values, OrderedMap.values, List.map_map, List.map_map]
  refine ((OrderedMap.perm_toList_ofList ?_).map _).trans (.of_eq ?_)
  · rw [List.map_map]
    exact hapart
  · rw [List.map_map]
    exact List.map_congr_left fun entry _ => source_sanitizedRecord _ _ _ _

theorem sourceText?_sanitizedPath {path text : String}
    (h : payload.sourceText? path = some text) :
    (payload.sanitize directory).2.sourceText? (payload.sanitizedPath directory path) =
      some text := by
  obtain ⟨record, hrecord, rfl⟩ := Option.map_eq_some_iff.mp h
  have hkey := OrderedMap.mem_keys_iff.mpr ⟨record, hrecord⟩
  rw [sourceText?, sources_sanitize,
    OrderedMap.get?_ofList_rename payload.sources (payload.sanitizedPath directory)
      (payload.sanitizedRecord directory)
      fun other hother heq => List.inj_on_of_nodup_map hapart hother hkey heq,
    hrecord, Option.map_some, Option.map_some, source_sanitizedRecord]

end

theorem keepsSources_sanitize_iff (hempty : "" ∉ payload.sources.keys) :
    KeepsSources payload (payload.sanitize directory).2 ↔
      (payload.sources.keys.map (payload.sanitizedPath directory)).Nodup := by
  refine ⟨fun h => size_sanitize_eq_iff.mp h.size, fun hapart => ?_⟩
  refine ⟨size_sanitize_eq_iff.mpr hapart, perm_texts_sanitize hapart, ?_⟩
  refine (sourceLists_sanitize payload directory).imp fun contract renamed hlist => ?_
  rw [hlist, List.forall₂_map_right_iff, List.forall₂_same]
  intro path _ text htext
  have hne : path ≠ "" := by
    rintro rfl
    obtain ⟨record, hrecord, -⟩ := Option.map_eq_some_iff.mp htext
    exact hempty (OrderedMap.mem_keys_iff.mpr ⟨record, hrecord⟩)
  rw [if_neg hne]
  exact sourceText?_sanitizedPath hapart htext

/-! ## Sources that meet -/

/-- Two paths that become one led to one file, unless one of them leads to the directory
that is taken off and so keeps its path, or names that are no texts are written alike. -/
theorem eq_or_shared_of_sanitizedPath_eq {path other : String}
    (hpath : path ∈ payload.namedPaths) (hother : other ∈ payload.namedPaths)
    (hne : path ≠ other)
    (h : payload.sanitizedPath directory path = payload.sanitizedPath directory other) :
    ∃ shared, (payload.sanitize directory).1 = some shared ∧
      (seen directory path = seen directory other ∨
        seen directory path = shared ∨ seen directory other = shared ∨
        ¬ directory.IsText ∧ (behind directory shared path).map (·.written) =
          (behind directory shared other).map (·.written)) := by
  rw [sanitizedPath, sanitizedPath] at h
  split at h
  case h_1 => contradiction
  case h_2 shared hshared =>
    refine ⟨shared, by rw [sanitize_of_sharedDirectory? hshared], ?_⟩
    by_contra! hapart
    obtain ⟨hfiles, hleads, hleads', hwritten⟩ := hapart
    have hprefix := prefix_of_sharedDirectory? hshared hpath
    have hprefix' := prefix_of_sharedDirectory? hshared hother
    obtain ⟨stripped, hstripped, hbehind⟩ := exists_stripped?_eq_some hshared hprefix hleads
    obtain ⟨stripped', hstripped', hbehind'⟩ := exists_stripped?_eq_some hshared hprefix' hleads'
    rw [stripPath, stripPath, hstripped, hstripped', Option.getD_some, Option.getD_some] at h
    have halike : (behind directory shared path).map (·.written) =
        (behind directory shared other).map (·.written) := by rw [← hbehind, ← hbehind', h]
    have hdirectory : directory.IsText := by
      by_contra hstray
      exact hwritten hstray halike
    apply hfiles
    apply seen_eq_of_components_eq
    rw [← append_behind hprefix, ← append_behind hprefix',
      writtenApart_of_isText payload hdirectory shared path hpath other hother halike]

theorem empty_not_mem_keys_assemble (artifacts : Artifacts) :
    "" ∉ (assemble artifacts).sources.keys := by
  intro hkey
  obtain ⟨record, hrecord⟩ := OrderedMap.mem_keys_iff.mp hkey
  rw [get?_sources_assemble] at hrecord
  split at hrecord
  case isTrue hlisted => exact ne_empty_of_mem_listed hlisted rfl
  case isFalse => cases hrecord

/--
Sanitizing keeps all sources of assembled artifacts exactly if no two of them get the
same path; what is found under a path is the last of those that got it.  Sources under
different paths can meet only if the paths lead to one file, one of them leads to the
directory that is taken off, or names that are no texts are written alike.
-/
theorem sanitize_keeps_sources_iff_new_paths_differ (artifacts : Artifacts)
    (directory : BytePath) :
    (KeepsSources (assemble artifacts) ((assemble artifacts).sanitize directory).2 ↔
      ((assemble artifacts).sources.keys.map
        ((assemble artifacts).sanitizedPath directory)).Nodup) ∧
    (∀ path, ((assemble artifacts).sanitize directory).2.sourceText? path =
      (((assemble artifacts).sources.toList.filter fun entry =>
        (assemble artifacts).sanitizedPath directory entry.1 = path).getLast?).map
        (·.2.source)) ∧
    ∀ path ∈ (assemble artifacts).sources.keys, ∀ other ∈ (assemble artifacts).sources.keys,
      path ≠ other →
      (assemble artifacts).sanitizedPath directory path =
        (assemble artifacts).sanitizedPath directory other →
      ∃ shared, ((assemble artifacts).sanitize directory).1 = some shared ∧
        (seen directory path = seen directory other ∨
          seen directory path = shared ∨ seen directory other = shared ∨
          ¬ directory.IsText ∧ (behind directory shared path).map (·.written) =
            (behind directory shared other).map (·.written)) := by
  have hempty := empty_not_mem_keys_assemble artifacts
  have hnamed : ∀ path ∈ (assemble artifacts).sources.keys,
      path ∈ (assemble artifacts).namedPaths := by
    intro path hpath
    refine mem_namedPaths_of_mem_keys hpath ?_
    rintro rfl
    exact hempty hpath
  refine ⟨keepsSources_sanitize_iff hempty, sourceText?_sanitize _ directory, ?_⟩
  intro path hpath other hother hne
  exact eq_or_shared_of_sanitizedPath_eq (hnamed path hpath) (hnamed other hother) hne

/-- Two versions of a library, one of them under a path that begins with a dot. -/
def respelledLibrary : Artifacts where
  contracts := .ofList [("A.sol", [⟨"A", "60", "60", "0:1:2", "0:1:2",
    ["A.sol", "lib/M", "./lib/M"], "A.sol"⟩])]
  sources := .ofList [
    ("A.sol", ⟨"A.sol", "contract A \x7b\x7d", .null, none, some 0, none⟩),
    ("lib/M", ⟨"lib/M", "library M \x7b\x7d", .null, none, some 1, none⟩),
    ("./lib/M", ⟨"./lib/M", "library Old \x7b\x7d", .null, none, some 2, none⟩)]
  solcVersion := none

/-- The older version is lost, and its entry leads to the newer one. -/
theorem respelledLibrary_loses_a_version :
    (assemble respelledLibrary).sources.keys = ["./lib/M", "A.sol", "lib/M"] ∧
    ((assemble respelledLibrary).sanitize (.ofText "/p")).2.sources.values.map (·.source) =
      ["contract A \x7b\x7d", "library M \x7b\x7d"] ∧
    ((assemble respelledLibrary).sanitize (.ofText "/p")).2.contracts.map (·.sourceList) =
      [["A.sol", "lib/M", "lib/M"]] ∧
    ¬ KeepsSources (assemble respelledLibrary)
      ((assemble respelledLibrary).sanitize (.ofText "/p")).2 := by
  have hkeys : (assemble respelledLibrary).sources.keys = ["./lib/M", "A.sol", "lib/M"] := by
    decide +kernel
  have hafter :
      ((assemble respelledLibrary).sanitize (.ofText "/p")).2.sources.values.map (·.source) =
        ["contract A \x7b\x7d", "library M \x7b\x7d"] ∧
      ((assemble respelledLibrary).sanitize (.ofText "/p")).2.contracts.map (·.sourceList) =
        [["A.sol", "lib/M", "lib/M"]] := by decide +kernel
  refine ⟨hkeys, hafter.1, hafter.2, fun hkeeps => ?_⟩
  have hlength := hkeeps.texts.length_eq
  rw [hafter.1, List.length_map, OrderedMap.values, List.length_map,
    ← List.length_map (f := Prod.fst), ← OrderedMap.keys, hkeys] at hlength
  cases hlength

end Payload

end ArtifactAtlas
