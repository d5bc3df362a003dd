import ArtifactAtlas.Artifact.IndexTable
import ArtifactAtlas.Proofs.Artifact.Places
import ArtifactAtlas.Proofs.Artifact.Steps
import ArtifactAtlas.Proofs.OrderedMap
import Mathlib.Data.List.DropRight

/-!
# Laying out index tables

A table whose indices differ puts each path in a place of its own: the list has every
path at its index, and nothing else.  The places of a list are such a table, which lays
out the list again but for the gaps at its end.
-/

namespace ArtifactAtlas.SourceList

/-! ## Tables of items -/

section

variable {ι : Type} {index? : ι → Option Nat} {name : ι → String} {items : List ι}
  {table : List (Nat × String)}

/-- The entry of a table that stands for an item. -/
def StandsFor (index? : ι → Option Nat) (name : ι → String) (item : ι)
    (entry : Nat × String) : Prop :=
  index? item = some entry.1 ∧ name item = entry.2

theorem mapM_index?_eq_some_iff :
    items.mapM (fun item => (index? item).map (·, name item)) = some table ↔
      List.Forall₂ (StandsFor index? name) items table := by
  induction items generalizing table with
  | nil => simp [eq_comm]
  | cons item rest ih =>
      simp only [List.mapM_cons, Option.bind_eq_bind, Option.bind_eq_some_iff,
        Option.map_eq_some_iff, Option.pure_def, Option.some.injEq, List.forall₂_cons_left_iff]
      constructor
      · rintro ⟨_, ⟨index, hindex, rfl⟩, others, hothers, rfl⟩
        exact ⟨_, others, ⟨hindex, rfl⟩, ih.mp hothers, rfl⟩
      · rintro ⟨⟨index, _⟩, others, ⟨hindex, rfl⟩, hothers, rfl⟩
        exact ⟨_, ⟨index, hindex, rfl⟩, others, ih.mpr hothers, rfl⟩

theorem exists_table (h : ∀ item ∈ items, ∃ index, index? item = some index) :
    ∃ table, List.Forall₂ (StandsFor index? name) items table := by
  induction items with
  | nil => exact ⟨[], .nil⟩
  | cons item rest ih =>
      rw [List.forall_mem_cons] at h
      obtain ⟨index, hindex⟩ := h.1
      obtain ⟨table, htable⟩ := ih h.2
      exact ⟨(index, name item) :: table, .cons ⟨hindex, rfl⟩ htable⟩

variable (h : List.Forall₂ (StandsFor index? name) items table)

include h

theorem map_snd_table : table.map Prod.snd = items.map name :=
  (map_eq_map_of_forall₂ (h.imp fun _ _ hentry => hentry.2)).symm

theorem nodup_table_iff : (table.map Prod.fst).Nodup ↔ (items.map index?).Nodup := by
  have hindices : items.map index? = (table.map Prod.fst).map some := by
    rw [List.map_map]
    exact map_eq_map_of_forall₂ (h.imp fun _ _ hentry => hentry.1)
  rw [hindices, List.nodup_map_iff fun _ _ => Option.some.inj]

end

/-! ## Named paths -/

@[simp] theorem named_append (front back : SourceList) :
    named (front ++ back) = named front ++ named back :=
  List.filter_append front back

theorem named_eq_self {list : SourceList} (h : "" ∉ list) : list.named = list := by
  rw [named, List.filter_eq_self]
  intro path hpath
  have hne : path ≠ "" := fun heq => h (heq ▸ hpath)
  simpa using hne

/-! ## One entry -/

theorem getD_put (list : SourceList) (index place : Nat) (path : String) :
    (put list index path)[place]?.getD "" =
      if place = index then path else list[place]?.getD "" := by
  rw [put]
  split
  case isTrue hle =>
    simp only [List.getElem?_append, List.getElem?_replicate, List.length_append,
      List.length_replicate]
    by_cases hplace : place = index
    · subst hplace
      have hend : list.length + (place - list.length) = place := Nat.add_sub_cancel' hle
      simp [hend]
    · rw [if_neg hplace]
      by_cases hfront : place < list.length
      · rw [if_pos (by omega), if_pos hfront]
      · have hnone : list[place]? = none := List.getElem?_eq_none (by omega)
        rw [if_neg hfront, hnone]
        split
        case isTrue => rw [if_pos (by omega)]; rfl
        case isFalse => rw [List.getElem?_eq_none (by simp; omega)]
  case isFalse hlt =>
    rw [List.getElem?_set]
    by_cases hplace : place = index
    · subst hplace
      rw [if_pos rfl, if_pos rfl, if_pos (by omega)]
      rfl
    · rw [if_neg (Ne.symm hplace), if_neg hplace]

theorem lt_length_put_iff {list : SourceList} {index place : Nat} {path : String} :
    place < (put list index path).length ↔ place < list.length ∨ place ≤ index := by
  rw [put]
  split
  case isTrue =>
    simp only [List.length_append, List.length_replicate, List.length_singleton]
    omega
  case isFalse =>
    rw [List.length_set]
    omega

/-! ## All entries -/

/-- A table is laid out as a whole, unless an index is out of range: then the first such
entry is to blame. -/
theorem ofTable_eq (origin : Path) (table : List (Nat × String)) :
    ofTable origin table =
      match table.find? fun entry => largestIndex < entry.1 with
      | some (index, path) => .error (.build origin (.indexOutOfRange index path))
      | none => .ok (table.foldl (fun list entry => put list entry.1 entry.2) []) := by
  rw [ofTable]
  generalize [] = start
  induction table generalizing start with
  | nil => rfl
  | cons entry rest ih =>
      rw [List.foldlM_cons, List.find?_cons, List.foldl_cons]
      by_cases hindex : largestIndex < entry.1
      · simp only [gt_iff_lt, hindex, if_true, decide_true]
        rfl
      · simp only [gt_iff_lt, hindex, if_false, decide_false]
        exact ih (put start entry.1 entry.2)

theorem ofTable_eq_ok (origin : Path) {table : List (Nat × String)}
    (h : ∀ entry ∈ table, entry.1 ≤ largestIndex) :
    ofTable origin table =
      .ok (table.foldl (fun list entry => put list entry.1 entry.2) []) := by
  have hnone : table.find? (fun entry => largestIndex < entry.1) = none := by
    rw [List.find?_eq_none]
    intro entry hentry
    simpa using h entry hentry
  rw [ofTable_eq, hnone]

theorem eq_foldl_put_of_ofTable {origin : Path} {table : List (Nat × String)}
    {list : SourceList} (h : ofTable origin table = .ok list) :
    list = table.foldl (fun list entry => put list entry.1 entry.2) [] := by
  rw [ofTable_eq] at h
  split at h
  case h_1 => cases h
  case h_2 =>
    cases h
    rfl

theorem getD_foldl_put_of_not_mem (list : SourceList) {table : List (Nat × String)}
    {place : Nat} (h : place ∉ table.map Prod.fst) :
    (table.foldl (fun list entry => put list entry.1 entry.2) list)[place]?.getD "" =
      list[place]?.getD "" := by
  induction table generalizing list with
  | nil => rfl
  | cons entry rest ih =>
      rw [List.map_cons, List.mem_cons, not_or] at h
      rw [List.foldl_cons, ih _ h.2, getD_put, if_neg h.1]

theorem getD_foldl_put (list : SourceList) {table : List (Nat × String)}
    (hnodup : (table.map Prod.fst).Nodup) {index : Nat} {path : String}
    (h : (index, path) ∈ table) :
    (table.foldl (fun list entry => put list entry.1 entry.2) list)[index]?.getD "" = path := by
  induction table generalizing list with
  | nil => cases h
  | cons entry rest ih =>
      rw [List.map_cons, List.nodup_cons] at hnodup
      rw [List.foldl_cons]
      rcases List.mem_cons.mp h with rfl | h
      · rw [getD_foldl_put_of_not_mem _ hnodup.1, getD_put, if_pos rfl]
      · exact ih _ hnodup.2 h

theorem lt_length_foldl_put_iff (list : SourceList) {table : List (Nat × String)}
    {place : Nat} :
    place < (table.foldl (fun list entry => put list entry.1 entry.2) list).length ↔
      place < list.length ∨ ∃ entry ∈ table, place ≤ entry.1 := by
  induction table generalizing list with
  | nil => simp
  | cons entry rest ih =>
      rw [List.foldl_cons, ih, lt_length_put_iff, or_assoc, List.exists_mem_cons_iff]

variable {origin : Path} {table : List (Nat × String)} {list : SourceList}

theorem getElem?_ofTable_iff (h : ofTable origin table = .ok list)
    (hnodup : (table.map Prod.fst).Nodup) {index : Nat} {path : String} (hne : path ≠ "") :
    list[index]? = some path ↔ (index, path) ∈ table := by
  have hgetD : list[index]?.getD "" = path ↔ list[index]? = some path := by
    cases list[index]? <;> simp [hne.symm]
  rw [← hgetD, eq_foldl_put_of_ofTable h]
  constructor
  · intro hpath
    by_cases hindex : index ∈ table.map Prod.fst
    · obtain ⟨⟨_, other⟩, hentry, rfl⟩ := List.mem_map.mp hindex
      rw [getD_foldl_put [] hnodup hentry] at hpath
      exact hpath ▸ hentry
    · rw [getD_foldl_put_of_not_mem [] hindex] at hpath
      exact absurd hpath.symm hne
  · exact getD_foldl_put [] hnodup

theorem perm_placed_ofTable (h : ofTable origin table = .ok list)
    (hnodup : (table.map Prod.fst).Nodup) :
    list.placed.Perm (table.filter (·.2 ≠ "")) := by
  rw [List.perm_ext_iff_of_nodup (nodup_placed list) ((List.Nodup.of_map _ hnodup).filter _)]
  rintro ⟨index, path⟩
  rw [mem_placed_iff, List.mem_filter, decide_eq_true_iff]
  exact and_congr_left fun hne => getElem?_ofTable_iff h hnodup hne

theorem perm_named_ofTable (h : ofTable origin table = .ok list)
    (hnodup : (table.map Prod.fst).Nodup) : list.named.Perm (named (table.map Prod.snd)) := by
  have hperm := (perm_placed_ofTable h hnodup).map Prod.snd
  have htable : named (table.map Prod.snd) = (table.filter (·.2 ≠ "")).map Prod.snd :=
    List.filter_map
  rwa [map_snd_placed, ← htable] at hperm

/-! ## Places as a table -/

theorem rdropWhile_append_replicate (list : SourceList) :
    list.rdropWhile (· = "") ++
        List.replicate (list.length - (list.rdropWhile (· = "")).length) "" = list := by
  have hsplit := List.rdropWhile_append_rtakeWhile (p := (· = "")) (l := list)
  have hgaps : list.rtakeWhile (· = "") =
      List.replicate (list.rtakeWhile (· = "")).length "" :=
    List.eq_replicate_of_mem fun path hpath => by simpa using List.mem_rtakeWhile_imp hpath
  have hlength := congrArg List.length hsplit
  rw [List.length_append] at hlength
  rw [Nat.sub_eq_of_eq_add' hlength.symm, ← hgaps, hsplit]

/-- Each place lies behind those before it, so it is put at the end, with the gaps. -/
theorem foldl_put_placed (list : SourceList) :
    list.placed.foldl (fun list entry => put list entry.1 entry.2) [] =
      list.rdropWhile (· = "") := by
  induction list using List.reverseRecOn with
  | nil => rfl
  | append_singleton list path ih =>
      rw [placed_concat, List.foldl_append, ih, List.rdropWhile_concat]
      by_cases hempty : path = ""
      · simp [hempty]
      · rw [if_neg hempty, if_neg (by simpa using hempty), List.foldl_cons, List.foldl_nil, put,
          if_pos (List.rdropWhile_prefix _ list).length_le, rdropWhile_append_replicate]

theorem ofTable_placed (origin : Path) (list : SourceList)
    (h : list.length ≤ largestIndex + 1) :
    ofTable origin list.placed = .ok (list.rdropWhile (· = "")) := by
  rw [ofTable_eq_ok, foldl_put_placed]
  rintro ⟨index, path⟩ hplaced
  obtain ⟨hindex, -⟩ := List.getElem?_eq_some_iff.mp (mem_placed_iff.mp hplaced).1
  exact Nat.le_of_lt_succ (Nat.lt_of_lt_of_le hindex h)

end ArtifactAtlas.SourceList
