import ArtifactAtlas.OrderedMap

/-!
# TOML values

A table holds its entries under keys that differ.  While a document is read, a
table also knows how it came about, because that decides what may still be added
to it.
-/

namespace ArtifactAtlas

inductive Toml where
  | string (s : String)
  | bool (b : Bool)
  /-- A number, date or time. -/
  | scalar
  | array (items : List Toml)
  | table (entries : List (String × Toml))

namespace Toml

/-! ## Tables that grow -/

inductive Origin where
  /-- The table has a header of its own. -/
  | header
  /-- The table is only named on the way to another one by a header. -/
  | passed
  /-- The table is named by a key with dots. -/
  | dotted
  deriving DecidableEq, Repr

inductive Item where
  /-- A value that is complete. -/
  | value (v : Toml)
  | table (origin : Origin) (entries : List (String × Item))
  /-- Tables that share a header, in order. -/
  | tables (all : List (List (String × Item)))

abbrev Items := List (String × Item)

mutual

def Item.toToml : Item → Toml
  | .value v => v
  | .table _ entries => .table (closeAll entries)
  | .tables all => .array (closeEach all)

def closeAll : List (String × Item) → List (String × Toml)
  | [] => []
  | (key, item) :: rest => (key, item.toToml) :: closeAll rest

def closeEach : List (List (String × Item)) → List Toml
  | [] => []
  | entries :: rest => .table (closeAll entries) :: closeEach rest

end

/-- Changes the table at the end of a way of keys.  Tables that are missing on the way are
made; `origin` says how.  A key with dots does not lead into a table that has a header. -/
def alterAt (origin : Origin) (finish : Origin → Items → Option Items) :
    List String → Origin → Items → Option Items
  | [], here, items => finish here items
  | key :: way, _, items =>
      match Entries.lookup key items with
      | none => do
          let inner ← alterAt origin finish way origin []
          return Entries.put key (.table origin inner) items
      | some (.table old inner) => do
          if origin = .dotted ∧ old = .header then none
          let inner ← alterAt origin finish way old inner
          return Entries.put key (.table old inner) items
      | some (.tables all) => do
          let last ← all.getLast?
          let last ← alterAt origin finish way .header last
          return Entries.put key (.tables (all.dropLast ++ [last])) items
      | some (.value _) => none

/-- Adds a value under a key that may have dots. -/
def assign (way : List String) (key : String) (value : Toml) (here : Origin) (items : Items) :
    Option Items :=
  alterAt .dotted (fun origin items =>
    if decide (origin = .dotted) = way.isEmpty then none
    else
      match Entries.lookup key items with
      | some _ => none
      | none => some (Entries.put key (.value value) items)) way here items

def openTable (key : String) (_ : Origin) (items : Items) : Option Items :=
  match Entries.lookup key items with
  | none => some (Entries.put key (.table .header []) items)
  | some (.table .passed inner) => some (Entries.put key (.table .header inner) items)
  | some _ => none

/-- Adds a table to those that share a header. -/
def openNext (key : String) (_ : Origin) (items : Items) : Option Items :=
  match Entries.lookup key items with
  | none => some (Entries.put key (.tables [[]]) items)
  | some (.tables all) => some (Entries.put key (.tables (all ++ [[]])) items)
  | some _ => none

end Toml

end ArtifactAtlas
