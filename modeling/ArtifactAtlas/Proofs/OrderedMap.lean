import ArtifactAtlas.OrderedMap
import Mathlib.Data.List.Nodup
import Mathlib.Data.List.Perm.Subperm

/-!
# Looking up in ordered maps

What `get?` says after each operation on a map.  A map holds nothing but what it
says of its keys, so maps that say the same of each key are equal.
-/

namespace ArtifactAtlas

namespace Entries

/-! ## Entries in any order -/

section

variable {κ ν : Type} [DecidableEq κ]

theorem lookup_append (key : κ) (front back : List (κ × ν)) :
    lookup key (front ++ back) = (lookup key front).or (lookup key back) := by
  induction front with
  | nil => rfl
  | cons head rest ih =>
      rw [List.cons_append, lookup, lookup, ih]
      split <;> rfl

theorem lookup_flatMap {ι : Type} (key : κ) (f : ι → List (κ × ν)) (items : List ι) :
    lookup key (items.flatMap f) = items.findSome? fun item => lookup key (f item) := by
  induction items with
  | nil => rfl
  | cons item rest ih =>
      rw [List.flatMap_cons, lookup_append, ih, List.findSome?_cons]
      cases lookup key (f item) <;> rfl

theorem lookup_map_values {μ : Type} (key : κ) (f : ν → μ) (entries : List (κ × ν)) :
    lookup key (entries.map fun entry => (entry.1, f entry.2)) = (lookup key entries).map f := by
  induction entries with
  | nil => rfl
  | cons head rest ih =>
      rw [List.map_cons, lookup, lookup, ih]
      split <;> rfl

theorem mem_of_lookup_eq_some {key : κ} {value : ν} {entries : List (κ × ν)}
    (h : lookup key entries = some value) : (key, value) ∈ entries := by
  induction entries with
  | nil => cases h
  | cons head rest ih =>
      obtain ⟨k, v⟩ := head
      rw [lookup] at h
      split at h
      case isTrue heq =>
        cases h
        exact heq ▸ List.mem_cons_self
      case isFalse => exact List.mem_cons_of_mem _ (ih h)

theorem exists_lookup_of_mem {entry : κ × ν} {entries : List (κ × ν)} (h : entry ∈ entries) :
    ∃ value, lookup entry.1 entries = some value := by
  induction entries with
  | nil => cases h
  | cons head rest ih =>
      obtain ⟨k, v⟩ := head
      rw [lookup]
      split
      case isTrue => exact ⟨v, rfl⟩
      case isFalse hne =>
        rcases List.mem_cons.mp h with rfl | h
        · contradiction
        · exact ih h

/-- Of entries that are made from their keys it does not matter which one is found. -/
theorem lookup_filterMap_keys (f : κ → Option ν) (keys : List κ) (key : κ) :
    lookup key (keys.filterMap fun k => (f k).map (k, ·)) =
      if key ∈ keys then f key else none := by
  induction keys with
  | nil => rfl
  | cons k rest ih =>
      rw [List.filterMap_cons]
      by_cases hk : k = key
      · subst hk
        cases hf : f k with
        | none => simpa [hf] using ih
        | some value => simp [lookup]
      · have hne : key ≠ k := Ne.symm hk
        cases hf : f k with
        | none => simpa [hne] using ih
        | some value => simpa [lookup, hk, hne] using ih

/-- Which entry is found does not depend on their order when their keys differ. -/
theorem lookup_eq_some_iff_of_nodup {entries : List (κ × ν)}
    (h : (entries.map Prod.fst).Nodup) {key : κ} {value : ν} :
    lookup key entries = some value ↔ (key, value) ∈ entries := by
  refine ⟨mem_of_lookup_eq_some, fun hmem => ?_⟩
  induction entries with
  | nil => cases hmem
  | cons head rest ih =>
      rw [List.map_cons, List.nodup_cons] at h
      rcases List.mem_cons.mp hmem with rfl | hmem
      · simp [lookup]
      · have hne : head.1 ≠ key := by
          intro heq
          exact h.1 (List.mem_map.mpr ⟨_, hmem, heq.symm⟩)
        rw [lookup, if_neg hne, ih h.2 hmem]

/-- Where all entries of a key have one value it does not matter which one is found. -/
theorem lookup_eq_some_iff_of_functional {entries : List (κ × ν)}
    (h : ∀ key first second, (key, first) ∈ entries → (key, second) ∈ entries →
      first = second) {key : κ} {value : ν} :
    lookup key entries = some value ↔ (key, value) ∈ entries := by
  refine ⟨mem_of_lookup_eq_some, fun hmem => ?_⟩
  obtain ⟨found, hfound⟩ := exists_lookup_of_mem hmem
  rw [hfound, h key found value (mem_of_lookup_eq_some hfound) hmem]

theorem filter_eq_nil_of_not_mem {key : κ} {entries : List (κ × ν)}
    (h : key ∉ entries.map Prod.fst) : entries.filter (·.1 = key) = [] := by
  rw [List.filter_eq_nil_iff]
  intro entry hentry
  simpa using fun heq : entry.1 = key => h (heq ▸ List.mem_map_of_mem hentry)

theorem lookup_reverse (key : κ) (entries : List (κ × ν)) :
    lookup key entries.reverse =
      ((entries.filter (·.1 = key)).getLast?).map Prod.snd := by
  induction entries with
  | nil => rfl
  | cons head rest ih =>
      rw [List.reverse_cons, lookup_append, ih, lookup, List.filter_cons]
      by_cases hk : head.1 = key
      · cases hlast : (rest.filter (·.1 = key)).getLast? <;>
          simp [hk, hlast, List.getLast?_cons]
      · simp [hk, lookup]

theorem lookup_put (key other : κ) (value : ν) (entries : List (κ × ν)) :
    lookup other (put key value entries) =
      if key = other then some value else lookup other entries := by
  induction entries with
  | nil => rfl
  | cons head rest ih =>
      obtain ⟨k, v⟩ := head
      rw [put]
      split
      case isTrue heq =>
        subst heq
        by_cases hk : k = other <;> simp [lookup, hk]
      case isFalse hne =>
        by_cases hk : k = other
        · subst hk
          simp [lookup, Ne.symm hne]
        · simp [lookup, hk, ih]

end

/-! ## Entries in order -/

variable {κ ν μ : Type} [LT κ] [DecidableEq κ] [KeyOrder κ]

theorem lookup_insert [DecidableLT κ] (key other : κ) (value : ν)
    (entries : List (κ × ν)) :
    lookup other (insert key value entries) =
      if key = other then some value else lookup other entries := by
  induction entries with
  | nil => rfl
  | cons head rest ih =>
      obtain ⟨k, v⟩ := head
      simp only [insert]
      split
      · rfl
      case isFalse hge =>
        split
        case isTrue hlt =>
          have hne : key ≠ k := by
            rintro rfl
            exact KeyOrder.irrefl _ hlt
          by_cases hk : k = other
          · subst hk
            simp [lookup, hne]
          · simp only [lookup, if_neg hk, ih]
        case isFalse hle =>
          obtain rfl : key = k := KeyOrder.connex hge hle
          by_cases hkey : key = other <;> simp [lookup, hkey]

theorem lookup_eq_none_of_forall_lt {key : κ} {entries : List (κ × ν)}
    (h : ∀ entry ∈ entries, key < entry.1) : lookup key entries = none := by
  induction entries with
  | nil => rfl
  | cons head rest ih =>
      simp only [List.forall_mem_cons] at h
      have hne : head.1 ≠ key := by
        intro heq
        exact KeyOrder.irrefl key (heq ▸ h.1)
      rw [lookup, if_neg hne, ih h.2]

theorem Sorted.lookup_filterMap {entries : List (κ × ν)} (h : Sorted entries)
    (f : κ → ν → Option μ) (key : κ) :
    lookup key (entries.filterMap fun entry => (f entry.1 entry.2).map (entry.1, ·)) =
      (lookup key entries).bind (f key) := by
  induction entries with
  | nil => rfl
  | cons head rest ih =>
      obtain ⟨k, v⟩ := head
      obtain ⟨hhead, hrest⟩ := List.pairwise_cons.mp h
      rw [List.filterMap_cons, lookup]
      by_cases hk : k = key
      · subst hk
        -- the keys behind the first one are greater, so if it is dropped none is left
        have hnone : lookup k rest = none := lookup_eq_none_of_forall_lt hhead
        cases hf : f k v with
        | none => simp [hf, ih hrest, hnone]
        | some value => simp [hf, lookup]
      · cases hf : f k v with
        | none => simp [hk, ih hrest]
        | some value => simp [hk, lookup, ih hrest]

theorem Sorted.lookup_eq_some_iff {entries : List (κ × ν)} (h : Sorted entries) {key : κ}
    {value : ν} : lookup key entries = some value ↔ (key, value) ∈ entries := by
  refine ⟨mem_of_lookup_eq_some, fun hmem => ?_⟩
  induction entries with
  | nil => cases hmem
  | cons head rest ih =>
      obtain ⟨hhead, hrest⟩ := List.pairwise_cons.mp h
      rcases List.mem_cons.mp hmem with rfl | hmem
      · simp [lookup]
      · have hlt : head.1 < key := hhead _ hmem
        have hne : head.1 ≠ key := fun heq => KeyOrder.irrefl key (heq ▸ hlt)
        rw [lookup, if_neg hne, ih hrest hmem]

theorem Sorted.not_lt_of_lookup_eq_some {key first : κ} {value found : ν}
    {rest : List (κ × ν)} (h : Sorted ((first, value) :: rest))
    (hfound : lookup key ((first, value) :: rest) = some found) : ¬ key < first := by
  intro hlt
  have hrest := (List.pairwise_cons.mp h).1
  have hnone : lookup key ((first, value) :: rest) = none := by
    apply lookup_eq_none_of_forall_lt
    simp only [List.forall_mem_cons]
    exact ⟨hlt, fun entry hentry => KeyOrder.trans hlt (hrest entry hentry)⟩
  rw [hnone] at hfound
  cases hfound

theorem Sorted.eq_of_lookup_eq {entries others : List (κ × ν)} (h : Sorted entries)
    (hothers : Sorted others) (hlookup : ∀ key, lookup key entries = lookup key others) :
    entries = others := by
  induction entries generalizing others with
  | nil =>
      cases others with
      | nil => rfl
      | cons head rest => simpa [lookup] using hlookup head.1
  | cons head rest ih =>
      cases others with
      | nil => simpa [lookup] using hlookup head.1
      | cons head' rest' =>
          obtain ⟨k, v⟩ := head
          obtain ⟨k', v'⟩ := head'
          have hfound : lookup k ((k', v') :: rest') = some v := by
            rw [← hlookup k, lookup, if_pos rfl]
          have hfound' : lookup k' ((k, v) :: rest) = some v' := by
            rw [hlookup k', lookup, if_pos rfl]
          obtain rfl : k = k' := KeyOrder.connex (hothers.not_lt_of_lookup_eq_some hfound)
            (h.not_lt_of_lookup_eq_some hfound')
          obtain rfl : v' = v := by simpa [lookup] using hfound
          obtain ⟨hhead, hrest⟩ := List.pairwise_cons.mp h
          obtain ⟨hhead', hrest'⟩ := List.pairwise_cons.mp hothers
          rw [ih hrest hrest']
          intro key
          by_cases hk : k = key
          · subst hk
            rw [lookup_eq_none_of_forall_lt hhead, lookup_eq_none_of_forall_lt hhead']
          · simpa [lookup, hk] using hlookup key

/--
Entries under new names.  An entry is found under its new name when no other key
gets that name.
-/
theorem Sorted.lookup_reverse_rename {κ' : Type} [DecidableEq κ'] {entries : List (κ × ν)}
    (h : Sorted entries) (rename : κ → κ') (f : κ → ν → μ) {key : κ}
    (honly : ∀ entry ∈ entries, rename entry.1 = rename key → entry.1 = key) :
    lookup (rename key)
        ((entries.map fun entry => (rename entry.1, f entry.1 entry.2)).reverse) =
      (lookup key entries).map (f key) := by
  induction entries with
  | nil => rfl
  | cons head rest ih =>
      obtain ⟨hhead, hrest⟩ := List.pairwise_cons.mp h
      simp only [List.forall_mem_cons] at honly
      rw [List.map_cons, List.reverse_cons, lookup_append, ih hrest honly.2]
      by_cases hk : head.1 = key
      · subst hk
        have hnone : lookup head.1 rest = none := lookup_eq_none_of_forall_lt hhead
        simp [lookup, hnone]
      · have hname : rename head.1 ≠ rename key := fun heq => hk (honly.1 heq)
        simp [lookup, hk, hname]

end Entries

namespace OrderedMap

variable {κ ν μ : Type} [LT κ] [DecidableEq κ] [KeyOrder κ]

theorem eq_of_get?_eq {a b : OrderedMap κ ν} (h : ∀ key, a.get? key = b.get? key) : a = b :=
  ext (a.sorted.eq_of_lookup_eq b.sorted h)

omit [KeyOrder κ] in
@[simp] theorem get?_empty (key : κ) : (empty : OrderedMap κ ν).get? key = none := rfl

theorem get?_eq_some_iff {map : OrderedMap κ ν} {key : κ} {value : ν} :
    map.get? key = some value ↔ (key, value) ∈ map.toList :=
  map.sorted.lookup_eq_some_iff

theorem mem_keys_iff {map : OrderedMap κ ν} {key : κ} :
    key ∈ map.keys ↔ ∃ value, map.get? key = some value := by
  simp [keys, get?_eq_some_iff]

theorem get?_eq_none_iff {map : OrderedMap κ ν} {key : κ} :
    map.get? key = none ↔ key ∉ map.keys := by
  rw [mem_keys_iff, ← Option.isSome_iff_exists, Bool.not_eq_true, Option.isSome_eq_false_iff,
    Option.isNone_iff_eq_none]

omit [DecidableEq κ] [KeyOrder κ] in
theorem pairwise_keys (map : OrderedMap κ ν) : map.keys.Pairwise (· < ·) := by
  rw [keys, List.pairwise_map]
  exact map.sorted

omit [DecidableEq κ] in
theorem nodup_keys (map : OrderedMap κ ν) : map.keys.Nodup := by
  refine map.pairwise_keys.imp fun hlt heq => ?_
  rw [heq] at hlt
  exact KeyOrder.irrefl _ hlt

omit [DecidableEq κ] [KeyOrder κ] in
theorem keys_filter (keep : κ → Bool) (map : OrderedMap κ ν) :
    (map.filter fun key _ => keep key).keys = map.keys.filter keep := by
  rw [keys, keys, filter, List.filter_map]
  rfl

theorem get?_insert [DecidableLT κ] (map : OrderedMap κ ν) (key other : κ) (value : ν) :
    (map.insert key value).get? other =
      if key = other then some value else map.get? other :=
  Entries.lookup_insert key other value map.toList

theorem insert_insert [DecidableLT κ] (map : OrderedMap κ ν) (key : κ) (first second : ν) :
    (map.insert key first).insert key second = map.insert key second := by
  apply eq_of_get?_eq
  intro other
  rw [get?_insert, get?_insert, get?_insert]
  split <;> rfl

theorem get?_filter (keep : κ → ν → Bool) (map : OrderedMap κ ν) (key : κ) :
    (map.filter keep).get? key = (map.get? key).filter (keep key) := by
  ext value
  rw [get?_eq_some_iff, Option.filter_eq_some_iff, get?_eq_some_iff, filter, List.mem_filter]

theorem get?_erase (map : OrderedMap κ ν) (key other : κ) :
    (map.erase key).get? other = if key = other then none else map.get? other := by
  rw [erase, get?_filter]
  by_cases hk : key = other
  · subst hk
    simp
  · cases map.get? other <;> simp [hk, Ne.symm hk]

theorem get?_foldl_erase (map : OrderedMap κ ν) (keys : List κ) (key : κ) :
    (keys.foldl (fun map key => map.erase key) map).get? key =
      if key ∈ keys then none else map.get? key := by
  induction keys generalizing map with
  | nil => rfl
  | cons first rest ih =>
      rw [List.foldl_cons, ih, get?_erase]
      grind

theorem foldl_erase_empty (keys : List κ) :
    keys.foldl (fun map key => map.erase key) (empty : OrderedMap κ ν) = empty := by
  apply eq_of_get?_eq
  intro key
  rw [get?_foldl_erase, get?_empty, ite_self]

theorem get?_insertNew [DecidableLT κ] (map : OrderedMap κ ν) (key other : κ) (value : ν) :
    (map.insertNew key value).get? other =
      (map.get? other).or (if key = other then some value else none) := by
  rw [insertNew, contains]
  by_cases hk : key = other
  · subst hk
    cases hvalue : map.get? key with
    | none => simp [get?_insert]
    | some old => simp [hvalue]
  · cases map.get? key <;> simp [get?_insert, hk]

theorem get?_insertNewAll [DecidableLT κ] (map : OrderedMap κ ν) (entries : List (κ × ν))
    (key : κ) :
    (map.insertNewAll entries).get? key = (map.get? key).or (Entries.lookup key entries) := by
  induction entries generalizing map with
  | nil => simp [insertNewAll, Entries.lookup]
  | cons head rest ih =>
      rw [insertNewAll, List.foldl_cons, ← insertNewAll, ih, get?_insertNew, Option.or_assoc,
        Entries.lookup]
      split <;> rfl

theorem get?_insertAll [DecidableLT κ] (map : OrderedMap κ ν) (entries : List (κ × ν))
    (key : κ) :
    (map.insertAll entries).get? key =
      (Entries.lookup key entries.reverse).or (map.get? key) := by
  induction entries generalizing map with
  | nil => rfl
  | cons head rest ih =>
      rw [insertAll, List.foldl_cons, ← insertAll, ih, get?_insert, List.reverse_cons,
        Entries.lookup_append, Option.or_assoc, Entries.lookup, Entries.lookup]
      split <;> rfl

theorem get?_ofList [DecidableLT κ] (entries : List (κ × ν)) (key : κ) :
    (ofList entries).get? key = Entries.lookup key entries.reverse := by
  rw [ofList, get?_insertAll]
  exact Option.or_none

omit [DecidableEq κ] in
theorem insertAll_append [DecidableLT κ] (map : OrderedMap κ ν) (front back : List (κ × ν)) :
    map.insertAll (front ++ back) = (map.insertAll front).insertAll back :=
  List.foldl_append

/-- A map of a list has the keys of the list. -/
theorem mem_keys_ofList [DecidableLT κ] {entries : List (κ × ν)} {key : κ} :
    key ∈ (ofList entries).keys ↔ key ∈ entries.map Prod.fst := by
  rw [← not_iff_not, ← get?_eq_none_iff, get?_ofList, Entries.lookup_reverse,
    Option.map_eq_none_iff, List.getLast?_eq_none_iff, List.filter_eq_nil_iff, List.mem_map,
    not_exists]
  exact forall_congr' fun entry => by simp

/-- As long as no key comes twice, a map holds the entries that it was made of. -/
theorem perm_toList_ofList [DecidableLT κ] {entries : List (κ × ν)}
    (h : (entries.map Prod.fst).Nodup) : (ofList entries).toList.Perm entries := by
  have hnodup : (ofList entries).toList.Nodup := .of_map Prod.fst (nodup_keys _)
  rw [List.perm_ext_iff_of_nodup hnodup (.of_map Prod.fst h)]
  rintro ⟨key, value⟩
  have hreverse : (entries.reverse.map Prod.fst).Nodup := by
    rw [List.map_reverse, List.nodup_reverse]
    exact h
  rw [← get?_eq_some_iff, get?_ofList, Entries.lookup_eq_some_iff_of_nodup hreverse,
    List.mem_reverse]

theorem ofList_eq_of_perm [DecidableLT κ] {entries others : List (κ × ν)}
    (h : (entries.map Prod.fst).Nodup) (hperm : entries.Perm others) :
    ofList entries = ofList others := by
  have hothers := (hperm.map Prod.fst).nodup_iff.mp h
  apply eq_of_get?_eq
  intro key
  ext value
  rw [get?_eq_some_iff, get?_eq_some_iff, (perm_toList_ofList h).mem_iff, hperm.mem_iff,
    (perm_toList_ofList hothers).mem_iff]

/-- An entry is lost exactly when a key comes twice. -/
theorem size_ofList_eq_iff [DecidableLT κ] {entries : List (κ × ν)} :
    (ofList entries).size = entries.length ↔ (entries.map Prod.fst).Nodup := by
  constructor
  · intro hsize
    have hsubperm : (ofList entries).keys.Subperm (entries.map Prod.fst) :=
      List.subperm_of_subset (nodup_keys _) fun key hkey => mem_keys_ofList.mp hkey
    have hlength : (entries.map Prod.fst).length ≤ (ofList entries).keys.length := by
      rw [List.length_map, keys, List.length_map]
      exact Nat.le_of_eq hsize.symm
    exact (hsubperm.perm_of_length_le hlength).nodup_iff.mp (nodup_keys _)
  · intro hnodup
    exact (perm_toList_ofList hnodup).length_eq

theorem ofList_toList [DecidableLT κ] (map : OrderedMap κ ν) : ofList map.toList = map := by
  apply eq_of_get?_eq
  intro key
  have hnodup : (map.toList.reverse.map Prod.fst).Nodup := by
    rw [List.map_reverse, List.nodup_reverse]
    exact nodup_keys map
  ext value
  rw [get?_ofList, Entries.lookup_eq_some_iff_of_nodup hnodup, List.mem_reverse,
    get?_eq_some_iff]

theorem toList_ofList_of_sorted [DecidableLT κ] {entries : List (κ × ν)}
    (h : Entries.Sorted entries) : (ofList entries).toList = entries :=
  congrArg toList (ofList_toList ⟨entries, h⟩)

theorem ofList_map_entries [DecidableLT κ] (map : OrderedMap κ ν) (f : κ → ν → μ) :
    ofList (map.toList.map fun entry => (entry.1, f entry.1 entry.2)) = map.mapValues f :=
  ofList_toList (map.mapValues f)

theorem get?_filterMapValues (f : κ → ν → Option μ) (map : OrderedMap κ ν) (key : κ) :
    (map.filterMapValues f).get? key = (map.get? key).bind (f key) :=
  map.sorted.lookup_filterMap f key

theorem keys_filterMapValues (f : κ → ν → Option μ) (map : OrderedMap κ ν) :
    (map.filterMapValues f).keys =
      map.keys.filter fun key => ((map.get? key).bind (f key)).isSome := by
  rw [keys, keys, filterMapValues, List.map_filterMap, List.filter_map, ← List.filterMap_eq_map,
    List.filterMap_filter]
  refine List.filterMap_congr fun entry hentry => ?_
  have hvalue : map.get? entry.1 = some entry.2 := get?_eq_some_iff.mpr hentry
  cases hf : f entry.1 entry.2 <;> simp [hvalue, hf]

theorem get?_mapValues (f : κ → ν → μ) (map : OrderedMap κ ν) (key : κ) :
    (map.mapValues f).get? key = (map.get? key).map (f key) := by
  have h := map.sorted.lookup_filterMap (fun k v => some (f k v)) key
  simp only [Option.map_some, List.filterMap_eq_map'] at h
  rw [get?, mapValues, h, Option.map_eq_bind]
  rfl

theorem mapValues_mapValues {ρ : Type} (f : κ → ν → μ) (g : κ → μ → ρ)
    (map : OrderedMap κ ν) :
    (map.mapValues f).mapValues g = map.mapValues fun key value => g key (f key value) := by
  apply eq_of_get?_eq
  intro key
  rw [get?_mapValues, get?_mapValues, get?_mapValues, Option.map_map]
  rfl

theorem get?_ofList_rename {κ' : Type} [LT κ'] [DecidableEq κ'] [DecidableLT κ'] [KeyOrder κ']
    (map : OrderedMap κ ν) (rename : κ → κ') (f : κ → ν → μ) {key : κ}
    (honly : ∀ other ∈ map.keys, rename other = rename key → other = key) :
    (ofList (map.toList.map fun entry => (rename entry.1, f entry.1 entry.2))).get?
        (rename key) = (map.get? key).map (f key) := by
  rw [get?_ofList]
  refine map.sorted.lookup_reverse_rename rename f fun entry hentry => ?_
  exact honly entry.1 (List.mem_map_of_mem hentry)

omit [DecidableEq κ] [KeyOrder κ] in
theorem mem_keys_ofList_rename {κ' : Type} [LT κ'] [DecidableEq κ'] [DecidableLT κ'] [KeyOrder κ']
    (map : OrderedMap κ ν) (rename : κ → κ') (f : κ → ν → μ) {name : κ'} :
    name ∈ (ofList (map.toList.map fun entry => (rename entry.1, f entry.1 entry.2))).keys ↔
      ∃ key ∈ map.keys, rename key = name := by
  rw [mem_keys_ofList, List.map_map, keys]
  simp only [List.mem_map, Function.comp_apply, exists_exists_and_eq_and]

theorem keys_ofList_rename_eq_self [DecidableLT κ] (map : OrderedMap κ ν) (rename : κ → κ)
    (f : κ → ν → μ) (h : ∀ key ∈ map.keys, rename key = key) :
    (ofList (map.toList.map fun entry => (rename entry.1, f entry.1 entry.2))).keys =
      map.keys := by
  have hsame : (map.toList.map fun entry => (rename entry.1, f entry.1 entry.2)) =
      map.toList.map fun entry => (entry.1, f entry.1 entry.2) :=
    List.map_congr_left fun entry hentry => by rw [h entry.1 (List.mem_map_of_mem hentry)]
  rw [hsame, ofList_map_entries, keys, mapValues, List.map_map]
  rfl

/-! ## Groups -/

/-- A key without new items has its old group or none. -/
theorem get?_foldl_push [DecidableLT κ] (groups : OrderedMap κ (List ν))
    (entries : List (κ × ν)) (key : κ) :
    (entries.foldl (fun groups entry => groups.push entry.1 entry.2) groups).get? key =
      if key ∈ entries.map Prod.fst then
        some ((groups.get? key).getD [] ++ (entries.filter (·.1 = key)).map Prod.snd)
      else groups.get? key := by
  induction entries generalizing groups with
  | nil => rfl
  | cons head rest ih =>
      rw [List.foldl_cons, ih, push, get?_insert, List.filter_cons, List.map_cons]
      by_cases hk : head.1 = key
      · by_cases hrest : key ∈ rest.map Prod.fst
        · simp [hk, hrest]
        · simp [hk, hrest, Entries.filter_eq_nil_of_not_mem hrest]
      · have hmem : key ∈ head.1 :: rest.map Prod.fst ↔ key ∈ rest.map Prod.fst := by
          simp [Ne.symm hk]
        simp only [hmem]
        simp [hk]

theorem filter_push [DecidableLT κ] (keep : κ → Bool) (groups : OrderedMap κ (List ν)) (key : κ)
    (item : ν) :
    (groups.push key item).filter (fun key _ => keep key) =
      if keep key then (groups.filter fun key _ => keep key).push key item
      else groups.filter fun key _ => keep key := by
  apply eq_of_get?_eq
  intro other
  rw [get?_filter, push, get?_insert]
  cases hkeep : keep key with
  | true =>
      have hgroup : (groups.filter fun key _ => keep key).get? key = groups.get? key := by
        rw [get?_filter, hkeep]
        cases groups.get? key <;> rfl
      rw [if_pos rfl, push, hgroup, get?_insert, get?_filter]
      by_cases hk : key = other
      · rw [if_pos hk, if_pos hk, ← hk, hkeep]
        rfl
      · rw [if_neg hk, if_neg hk]
  | false =>
      rw [if_neg Bool.false_ne_true, get?_filter]
      by_cases hk : key = other
      · rw [← hk, hkeep, if_pos rfl]
        cases groups.get? key <;> rfl
      · rw [if_neg hk]

/-- To group the items of some keys only is to leave out the groups of the others. -/
theorem foldl_push_filter [DecidableLT κ] (keep : κ → Bool) (groups : OrderedMap κ (List ν))
    (entries : List (κ × ν)) :
    (entries.filter fun entry => keep entry.1).foldl
        (fun groups entry => groups.push entry.1 entry.2) (groups.filter fun key _ => keep key) =
      (entries.foldl (fun groups entry => groups.push entry.1 entry.2) groups).filter
        fun key _ => keep key := by
  induction entries generalizing groups with
  | nil => rfl
  | cons entry rest ih =>
      rw [List.foldl_cons, ← ih, filter_push, List.filter_cons]
      split <;> rfl

theorem foldl_push_insert [DecidableLT κ] (groups : OrderedMap κ (List ν)) (key : κ)
    (items more : List ν) :
    more.foldl (fun groups item => groups.push key item) (groups.insert key items) =
      groups.insert key (items ++ more) := by
  induction more generalizing items with
  | nil => simp
  | cons item rest ih =>
      have hitems : ((groups.insert key items).get? key).getD [] = items := by
        rw [get?_insert, if_pos rfl]
        rfl
      rw [List.foldl_cons, push, hitems, insert_insert, ih, List.append_assoc,
        List.singleton_append]

theorem foldl_push_of_get?_eq_none [DecidableLT κ] {groups : OrderedMap κ (List ν)} {key : κ}
    (h : groups.get? key = none) {items : List ν} (hne : items ≠ []) :
    items.foldl (fun groups item => groups.push key item) groups = groups.insert key items := by
  cases items with
  | nil => contradiction
  | cons item rest =>
      rw [List.foldl_cons, push, h, foldl_push_insert]
      rfl

theorem getD_get?_foldl_push [DecidableLT κ] (groups : OrderedMap κ (List ν))
    (entries : List (κ × ν)) (key : κ) :
    ((entries.foldl (fun groups entry => groups.push entry.1 entry.2) groups).get? key).getD [] =
      (groups.get? key).getD [] ++ (entries.filter (·.1 = key)).map Prod.snd := by
  rw [get?_foldl_push]
  split
  case isTrue => rfl
  case isFalse hkey => rw [Entries.filter_eq_nil_of_not_mem hkey, List.map_nil, List.append_nil]

theorem mem_group_foldl_push [DecidableLT κ] {entries : List (κ × ν)} {key : κ} {item : ν} :
    item ∈ ((entries.foldl (fun groups entry => groups.push entry.1 entry.2)
      empty).get? key).getD [] ↔ (key, item) ∈ entries := by
  have hempty : ((empty : OrderedMap κ (List ν)).get? key).getD [] = [] := rfl
  rw [getD_get?_foldl_push, hempty]
  simp

theorem mem_group_iff {groups : OrderedMap κ (List ν)} {key : κ} {item : ν} :
    item ∈ (groups.get? key).getD [] ↔ ∃ items, (key, items) ∈ groups.toList ∧ item ∈ items := by
  simp only [← get?_eq_some_iff]
  cases groups.get? key <;> simp

theorem mem_flatMap_groups {groups : OrderedMap κ (List ν)} {keep : κ → Bool} {key : κ}
    {item : ν} :
    (key, item) ∈ (groups.toList.filter fun group => keep group.1).flatMap
        (fun group => group.2.map (group.1, ·)) ↔
      keep key = true ∧ item ∈ (groups.get? key).getD [] := by
  simp only [mem_group_iff, List.mem_flatMap, List.mem_filter, List.mem_map, Prod.mk.injEq]
  constructor
  · rintro ⟨⟨_, items⟩, ⟨hgroup, hkeep⟩, _, hitem, rfl, rfl⟩
    exact ⟨hkeep, items, hgroup, hitem⟩
  · rintro ⟨hkeep, items, hgroup, hitem⟩
    exact ⟨(key, items), ⟨hgroup, hkeep⟩, item, hitem, rfl, rfl⟩

theorem mem_flatten_values {groups : OrderedMap κ (List ν)} {item : ν} :
    item ∈ groups.values.flatten ↔ ∃ key, item ∈ (groups.get? key).getD [] := by
  simp only [mem_group_iff, values, List.mem_flatten, List.mem_map, Prod.exists]
  constructor
  · rintro ⟨_, ⟨key, items, hentry, rfl⟩, hitem⟩
    exact ⟨key, items, hentry, hitem⟩
  · rintro ⟨key, items, hentry, hitem⟩
    exact ⟨items, ⟨key, items, hentry, rfl⟩, hitem⟩

end OrderedMap

namespace OrderedSet

variable {κ : Type} [LT κ] [DecidableEq κ] [DecidableLT κ] [KeyOrder κ]

theorem mem_keys_ofList {keys : List κ} {key : κ} :
    key ∈ (OrderedSet.ofList keys).keys ↔ key ∈ keys := by
  have hlookup := Entries.lookup_filterMap_keys (fun _ => some ()) keys.reverse key
  simp only [Option.map_some, List.filterMap_eq_map', List.map_reverse, List.mem_reverse]
    at hlookup
  rw [OrderedMap.mem_keys_iff, OrderedSet.ofList, OrderedMap.get?_ofList, hlookup]
  simp

theorem contains_ofList (keys : List κ) (key : κ) :
    (OrderedSet.ofList keys).contains key = decide (key ∈ keys) := by
  rw [Bool.eq_iff_iff, decide_eq_true_iff, ← mem_keys_ofList, OrderedMap.mem_keys_iff,
    OrderedMap.contains, Option.isSome_iff_exists]

omit [DecidableEq κ] in
theorem insertAll_ofList (keys more : List κ) :
    (OrderedSet.ofList keys).insertAll (more.map fun key => (key, ())) =
      OrderedSet.ofList (keys ++ more) := by
  rw [OrderedSet.ofList, OrderedMap.ofList, ← OrderedMap.insertAll_append, ← List.map_append]
  rfl

theorem isEmpty_ofList (keys : List κ) : (OrderedSet.ofList keys).isEmpty = keys.isEmpty := by
  rw [Bool.eq_iff_iff, List.isEmpty_iff, List.eq_nil_iff_forall_not_mem, OrderedMap.isEmpty,
    List.isEmpty_iff, ← List.map_eq_nil_iff (f := Prod.fst), List.eq_nil_iff_forall_not_mem]
  exact forall_congr' fun key => not_congr mem_keys_ofList

theorem ofList_congr {keys others : List κ} (h : ∀ key, key ∈ keys ↔ key ∈ others) :
    OrderedSet.ofList keys = OrderedSet.ofList others := by
  apply OrderedMap.eq_of_get?_eq
  intro key
  have hcontains : (OrderedSet.ofList keys).contains key =
      (OrderedSet.ofList others).contains key := by
    rw [contains_ofList, contains_ofList, decide_eq_decide]
    exact h key
  simp only [OrderedMap.contains] at hcontains
  cases hkey : (OrderedSet.ofList keys).get? key <;>
    cases hother : (OrderedSet.ofList others).get? key <;> simp_all

end OrderedSet

end ArtifactAtlas
