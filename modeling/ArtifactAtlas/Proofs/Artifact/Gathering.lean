import ArtifactAtlas.Artifact.Artifacts
import ArtifactAtlas.Artifact.CompilerOutput
import ArtifactAtlas.Proofs.Artifact.Places
import ArtifactAtlas.Proofs.OrderedMap

/-!
# What is gathered

The contracts of some artifacts are those of their portions, and a source is what the
first portion that brings it along says it is.
-/

namespace ArtifactAtlas

namespace Artifacts

def sourceText? (artifacts : Artifacts) (path : String) : Option String :=
  (artifacts.sources.get? path).map (·.source)

theorem get?_sources_gather (portions : List Portion) (path : String) :
    (gather portions).sources.get? path =
      portions.findSome? fun portion => Entries.lookup path portion.sources := by
  rw [gather, OrderedMap.get?_insertNewAll, Entries.lookup_flatMap]
  exact Option.none_or

theorem mem_keys_sources_gather {portions : List Portion} {path : String} :
    path ∈ (gather portions).sources.keys ↔
      path ∈ (portions.flatMap (·.sources)).map Prod.fst := by
  rw [OrderedMap.mem_keys_iff, gather, OrderedMap.get?_insertNewAll, OrderedMap.get?_empty,
    Option.none_or]
  constructor
  · rintro ⟨record, hrecord⟩
    exact List.mem_map_of_mem (Entries.mem_of_lookup_eq_some hrecord)
  · intro hpath
    obtain ⟨entry, hentry, rfl⟩ := List.mem_map.mp hpath
    exact Entries.exists_lookup_of_mem hentry

theorem contains_sources_gather {portions : List Portion} {portion : Portion}
    (hportion : portion ∈ portions) {path : String} {record : SourceRecord}
    (hrecord : Entries.lookup path portion.sources = some record) :
    (gather portions).sources.contains path = true := by
  rw [OrderedMap.contains, get?_sources_gather, List.findSome?_isSome_iff]
  exact ⟨portion, hportion, by rw [hrecord]; rfl⟩

theorem mem_group_gather {portions : List Portion} {source : String}
    {contracts : List Contract} (h : (gather portions).contracts.get? source = some contracts) :
    contracts ≠ [] ∧ ∀ contract ∈ contracts,
      ∃ portion ∈ portions, (source, contract) ∈ portion.contracts := by
  have hgroups : (gather portions).contracts =
      (portions.flatMap (·.contracts)).foldl
        (fun groups entry => groups.push entry.1 entry.2) .empty := rfl
  have hmem : ∀ contract, contract ∈ contracts ↔
      (source, contract) ∈ portions.flatMap (·.contracts) := by
    intro contract
    rw [← OrderedMap.mem_group_foldl_push, ← hgroups, h, Option.getD_some]
  rw [hgroups, OrderedMap.get?_foldl_push, OrderedMap.get?_empty] at h
  constructor
  · -- a source has a group only if there is an entry for it
    rintro rfl
    split at h
    case isTrue hsource =>
      obtain ⟨⟨_, contract⟩, hentry, rfl⟩ := List.mem_map.mp hsource
      exact List.not_mem_nil ((hmem contract).mpr hentry)
    case isFalse => cases h
  · intro contract hcontract
    exact List.mem_flatMap.mp ((hmem contract).mp hcontract)

theorem mem_allContracts_gather {portions : List Portion} {contract : Contract} :
    contract ∈ (gather portions).allContracts ↔
      ∃ portion ∈ portions, ∃ source, (source, contract) ∈ portion.contracts := by
  have hgroups : (gather portions).contracts =
      (portions.flatMap (·.contracts)).foldl
        (fun groups entry => groups.push entry.1 entry.2) .empty := rfl
  rw [allContracts, OrderedMap.mem_flatten_values, hgroups]
  simp only [OrderedMap.mem_group_foldl_push, List.mem_flatMap]
  constructor
  · rintro ⟨source, portion, hportion, hcontract⟩
    exact ⟨portion, hportion, source, hcontract⟩
  · rintro ⟨portion, hportion, source, hcontract⟩
    exact ⟨source, portion, hportion, hcontract⟩

end Artifacts

namespace CompilerOutput

/-- Where the text of a record does not depend on its index, the records have the texts
of the sources that the list names. -/
theorem map_source_lookup_records {sourceList : SourceList}
    {record? : Nat → String → Option SourceRecord} {text? : String → Option String}
    (h : ∀ index path, (record? index path).map (·.source) = text? path) (path : String) :
    (Entries.lookup path (records sourceList record?)).map (·.source) =
      if path ∈ sourceList.named then text? path else none := by
  have htexts : (records sourceList record?).map (fun entry => (entry.1, entry.2.source)) =
      sourceList.named.filterMap fun path => (text? path).map (path, ·) := by
    rw [← SourceList.map_snd_placed, records, List.map_filterMap, List.filterMap_map]
    apply List.filterMap_congr
    rintro ⟨index, path⟩ _
    rw [Function.comp, ← h index path, Option.map_map, Option.map_map]
    rfl
  rw [← Entries.lookup_map_values, htexts, Entries.lookup_filterMap_keys]

end CompilerOutput

end ArtifactAtlas
