import ArtifactAtlas.Artifact.Contract
import ArtifactAtlas.OrderedMap
import Mathlib.Data.List.Induction

/-!
# Places on source lists

The paths of a source list that are not empty, each with its place.  They come in the
order of their places, and to rename paths moves none of them as long as no path becomes
empty that was not, and none that was gets a name.
-/

namespace ArtifactAtlas.SourceList

theorem map_snd_placed (list : SourceList) : list.placed.map Prod.snd = list.named := by
  have hfilter := List.filter_map (f := Prod.fst) (p := (· ≠ "")) (l := list.zipIdx)
  rw [List.zipIdx_map_fst] at hfilter
  rw [placed, named, List.map_map, hfilter]
  rfl

theorem mem_placed_iff {list : SourceList} {index : Nat} {path : String} :
    (index, path) ∈ list.placed ↔ list[index]? = some path ∧ path ≠ "" := by
  simp only [placed, List.mem_map, List.mem_filter, List.mem_zipIdx_iff_getElem?,
    decide_eq_true_iff, Prod.exists, Prod.swap_prod_mk, Prod.mk.injEq]
  constructor
  · rintro ⟨path, index, h, rfl, rfl⟩
    exact h
  · intro h
    exact ⟨path, index, h, rfl, rfl⟩

theorem placed_concat (list : SourceList) (path : String) :
    placed (list ++ [path]) =
      list.placed ++ if path = "" then [] else [(list.length, path)] := by
  rw [placed, List.zipIdx_append, List.filter_append, List.map_append, placed]
  by_cases hempty : path = "" <;> simp [hempty]

theorem sorted_placed (list : SourceList) : Entries.Sorted list.placed := by
  have hplaces : (list.zipIdx.map Prod.snd).Pairwise (· < ·) := by
    rw [List.zipIdx_map_snd]
    exact List.pairwise_lt_range'
  rw [List.pairwise_map] at hplaces
  rw [Entries.Sorted, placed, List.pairwise_map]
  exact hplaces.filter _

theorem nodup_placed (list : SourceList) : list.placed.Nodup :=
  (sorted_placed list).imp fun hlt heq => Nat.ne_of_lt hlt (congrArg Prod.fst heq)

theorem map_fst_placed_map {rename : String → String}
    (h : ∀ path, rename path = "" ↔ path = "") (list : SourceList) :
    (placed (list.map rename)).map Prod.fst = list.placed.map Prod.fst := by
  induction list using List.reverseRecOn with
  | nil => rfl
  | append_singleton list path ih =>
      rw [List.map_append, List.map_singleton, placed_concat, placed_concat, List.map_append,
        List.map_append, ih, List.length_map]
      by_cases hempty : path = "" <;> simp [h, hempty]

end ArtifactAtlas.SourceList
