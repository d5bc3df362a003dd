/-!
# Ordered maps

A finite map kept as the list of its entries in strictly increasing order of
their keys.  Two maps with the same entries are therefore equal, and the entries
of a map always come in the same order, however it was built.  In a list of entries
that is no map a key can come more than once; its first entry is the one that counts.
-/

namespace ArtifactAtlas

/-! ## Lists of entries -/

namespace Entries

variable {κ ν : Type} [DecidableEq κ]

/-- The value of the first entry with that key. -/
def lookup (key : κ) : List (κ × ν) → Option ν
  | [] => none
  | (k, v) :: rest => if k = key then some v else lookup key rest

/-- Gives the first entry with that key a new value, or adds an entry at the end. -/
def put (key : κ) (value : ν) : List (κ × ν) → List (κ × ν)
  | [] => [(key, value)]
  | (k, v) :: rest => if k = key then (k, value) :: rest else (k, v) :: put key value rest

end Entries

/-! ## Keys in order -/

/-- A strict order that tells any two keys apart. -/
class KeyOrder (κ : Type) [LT κ] : Prop where
  irrefl : ∀ a : κ, ¬ a < a
  trans : ∀ {a b c : κ}, a < b → b < c → a < c
  connex : ∀ {a b : κ}, ¬ a < b → ¬ b < a → a = b

instance : KeyOrder Nat where
  irrefl := Nat.lt_irrefl
  trans := Nat.lt_trans
  connex hab hba := Nat.le_antisymm (Nat.not_lt.1 hba) (Nat.not_lt.1 hab)

instance : KeyOrder String where
  irrefl _ := Std.lt_irrefl
  trans := Std.lt_trans
  connex hab hba := Std.le_antisymm (Std.not_lt.1 hba) (Std.not_lt.1 hab)

/-- Lists of keys are ordered by the first key in which they differ. -/
instance {κ : Type} [LT κ] [KeyOrder κ] : KeyOrder (List κ) where
  irrefl a := by
    induction a with
    | nil => exact List.not_lt_nil []
    | cons x a ih =>
        rw [List.cons_lt_cons_iff]
        rintro (h | ⟨_, h⟩)
        · exact KeyOrder.irrefl x h
        · exact ih h
  trans := by
    intro a
    induction a with
    | nil =>
        intro b c _ hbc
        cases c with
        | nil => exact absurd hbc (List.not_lt_nil b)
        | cons z c => exact List.nil_lt_cons z c
    | cons x a ih =>
        intro b c hab hbc
        cases b with
        | nil => exact absurd hab (List.not_lt_nil _)
        | cons y b =>
            cases c with
            | nil => exact absurd hbc (List.not_lt_nil _)
            | cons z c =>
                rw [List.cons_lt_cons_iff] at hab hbc ⊢
                rcases hab with hxy | ⟨rfl, hab⟩
                · rcases hbc with hyz | ⟨rfl, _⟩
                  · exact .inl (KeyOrder.trans hxy hyz)
                  · exact .inl hxy
                · exact hbc.imp id fun ⟨heq, hbc⟩ => ⟨heq, ih hab hbc⟩
  connex := by
    intro a
    induction a with
    | nil =>
        intro b hab _
        cases b with
        | nil => rfl
        | cons y b => exact absurd (List.nil_lt_cons y b) hab
    | cons x a ih =>
        intro b hab hba
        cases b with
        | nil => exact absurd (List.nil_lt_cons x a) hba
        | cons y b =>
            rw [List.cons_lt_cons_iff] at hab hba
            have hxy : x = y :=
              KeyOrder.connex (fun h => hab (.inl h)) (fun h => hba (.inl h))
            subst hxy
            rw [ih (fun h => hab (.inr ⟨rfl, h⟩)) (fun h => hba (.inr ⟨rfl, h⟩))]

/-! ## Sorted entries -/

namespace Entries

variable {κ ν : Type} [LT κ]

def Sorted (entries : List (κ × ν)) : Prop :=
  entries.Pairwise fun a b => a.1 < b.1

/-- Adds an entry in its place; one with an equal key gives way. -/
def insert [DecidableLT κ] (key : κ) (value : ν) : List (κ × ν) → List (κ × ν)
  | [] => [(key, value)]
  | (k, v) :: rest =>
      if key < k then (key, value) :: (k, v) :: rest
      else if k < key then (k, v) :: insert key value rest
      else (key, value) :: rest

theorem mem_insert [DecidableLT κ] {key : κ} {value : ν} {entry : κ × ν}
    {entries : List (κ × ν)} (h : entry ∈ insert key value entries) :
    entry = (key, value) ∨ entry ∈ entries := by
  induction entries with
  | nil => exact .inl (List.mem_singleton.1 h)
  | cons head rest ih =>
      simp only [insert] at h
      split at h
      · exact List.mem_cons.1 h
      · split at h
        · rcases List.mem_cons.1 h with rfl | h
          · exact .inr List.mem_cons_self
          · exact (ih h).imp id (List.mem_cons_of_mem _)
        · rcases List.mem_cons.1 h with rfl | h
          · exact .inl rfl
          · exact .inr (List.mem_cons_of_mem _ h)

theorem Sorted.insert [DecidableLT κ] [KeyOrder κ] {entries : List (κ × ν)}
    (h : Sorted entries) (key : κ) (value : ν) : Sorted (insert key value entries) := by
  induction entries with
  | nil => exact List.pairwise_singleton _ _
  | cons head rest ih =>
      obtain ⟨hhead, hrest⟩ := List.pairwise_cons.1 h
      simp only [Entries.insert]
      split
      case isTrue hlt =>
        refine List.pairwise_cons.2 ⟨fun entry he => ?_, h⟩
        rcases List.mem_cons.1 he with rfl | he
        · exact hlt
        · exact KeyOrder.trans hlt (hhead entry he)
      case isFalse hge =>
        split
        case isTrue hlt =>
          refine List.pairwise_cons.2 ⟨fun entry he => ?_, ih hrest⟩
          rcases mem_insert he with rfl | he
          · exact hlt
          · exact hhead entry he
        case isFalse hle =>
          refine List.pairwise_cons.2 ⟨fun entry he => ?_, hrest⟩
          rw [KeyOrder.connex hge hle]
          exact hhead entry he

end Entries

/-! ## Maps -/

structure OrderedMap (κ ν : Type) [LT κ] where
  toList : List (κ × ν)
  sorted : Entries.Sorted toList

namespace OrderedMap

variable {κ ν μ : Type} [LT κ]

instance [DecidableEq κ] [DecidableEq ν] : DecidableEq (OrderedMap κ ν) := fun a b =>
  decidable_of_iff (a.toList = b.toList)
    ⟨fun h => by cases a; cases b; cases h; rfl, fun h => h ▸ rfl⟩

@[ext] theorem ext {a b : OrderedMap κ ν} (h : a.toList = b.toList) : a = b := by
  cases a; cases b; cases h; rfl

def empty : OrderedMap κ ν :=
  ⟨[], List.Pairwise.nil⟩

instance : Inhabited (OrderedMap κ ν) := ⟨empty⟩

def isEmpty (map : OrderedMap κ ν) : Bool :=
  map.toList.isEmpty

def size (map : OrderedMap κ ν) : Nat :=
  map.toList.length

def keys (map : OrderedMap κ ν) : List κ :=
  map.toList.map Prod.fst

/-- The values, in the order of their keys. -/
def values (map : OrderedMap κ ν) : List ν :=
  map.toList.map Prod.snd

def get? [DecidableEq κ] (map : OrderedMap κ ν) (key : κ) : Option ν :=
  Entries.lookup key map.toList

def contains [DecidableEq κ] (map : OrderedMap κ ν) (key : κ) : Bool :=
  (map.get? key).isSome

/-- The map with that value for that key, in place of any other. -/
def insert [DecidableLT κ] [KeyOrder κ] (map : OrderedMap κ ν) (key : κ) (value : ν) :
    OrderedMap κ ν :=
  ⟨Entries.insert key value map.toList, map.sorted.insert key value⟩

/-- The map with a value for that key; one that is there already stays. -/
def insertNew [DecidableEq κ] [DecidableLT κ] [KeyOrder κ] (map : OrderedMap κ ν) (key : κ)
    (value : ν) : OrderedMap κ ν :=
  if map.contains key then map else map.insert key value

/-- Adds an item at the end of the list for that key. -/
def push [DecidableEq κ] [DecidableLT κ] [KeyOrder κ] (map : OrderedMap κ (List ν)) (key : κ)
    (item : ν) : OrderedMap κ (List ν) :=
  map.insert key ((map.get? key).getD [] ++ [item])

def filter (keep : κ → ν → Bool) (map : OrderedMap κ ν) : OrderedMap κ ν :=
  ⟨map.toList.filter fun entry => keep entry.1 entry.2, map.sorted.filter _⟩

def erase [DecidableEq κ] (map : OrderedMap κ ν) (key : κ) : OrderedMap κ ν :=
  map.filter fun k _ => k ≠ key

def mapValues (f : κ → ν → μ) (map : OrderedMap κ ν) : OrderedMap κ μ where
  toList := map.toList.map fun entry => (entry.1, f entry.1 entry.2)
  sorted := by
    unfold Entries.Sorted
    rw [List.pairwise_map]
    exact map.sorted

/-- New values for those keys that get one. -/
def filterMapValues (f : κ → ν → Option μ) (map : OrderedMap κ ν) : OrderedMap κ μ where
  toList := map.toList.filterMap fun entry => (f entry.1 entry.2).map (entry.1, ·)
  sorted := by
    unfold Entries.Sorted
    rw [List.pairwise_filterMap]
    refine map.sorted.imp fun hlt x hx y hy => ?_
    obtain ⟨_, _, rfl⟩ := Option.map_eq_some_iff.1 hx
    obtain ⟨_, _, rfl⟩ := Option.map_eq_some_iff.1 hy
    exact hlt

/-- Inserts entries one after the other; of two with one key the later one stays. -/
def insertAll [DecidableLT κ] [KeyOrder κ] (map : OrderedMap κ ν) (entries : List (κ × ν)) :
    OrderedMap κ ν :=
  entries.foldl (fun map entry => map.insert entry.1 entry.2) map

/-- Inserts entries one after the other; of two with one key the earlier one stays. -/
def insertNewAll [DecidableEq κ] [DecidableLT κ] [KeyOrder κ] (map : OrderedMap κ ν)
    (entries : List (κ × ν)) : OrderedMap κ ν :=
  entries.foldl (fun map entry => map.insertNew entry.1 entry.2) map

/-- The map of those entries; of two with one key the later one stays. -/
def ofList [DecidableLT κ] [KeyOrder κ] (entries : List (κ × ν)) : OrderedMap κ ν :=
  empty.insertAll entries

end OrderedMap

/-! ## Sets -/

abbrev OrderedSet (κ : Type) [LT κ] := OrderedMap κ Unit

namespace OrderedSet

variable {κ : Type} [LT κ] [DecidableLT κ] [KeyOrder κ]

def ofList (keys : List κ) : OrderedSet κ :=
  OrderedMap.ofList (keys.map fun key => (key, ()))

end OrderedSet

end ArtifactAtlas
