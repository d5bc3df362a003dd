import ArtifactAtlas.Path

/-!
# File trees

A tree of directories and regular files.  The entries of a directory are kept in
the order of their names, and a walk lists the files below a directory in that
order, going into a directory where its name comes.
-/

namespace ArtifactAtlas.FileTree

inductive Node where
  | file (content : ByteArray)
  | directory (entries : List (String × Node))

namespace Node

def empty : Node := directory []

def isDirectory : Node → Bool
  | file _ => false
  | directory _ => true

def isFile : Node → Bool
  | file _ => true
  | directory _ => false

def child? (node : Node) (name : String) : Option Node :=
  match node with
  | file _ => none
  | directory entries => Entries.lookup name entries

/-- The directory with one entry replaced or added. -/
def putEntry (name : String) (entry : Node) : Node → Node
  | file content => file content
  | directory entries => directory (Entries.insert name entry entries)

/-- Puts a node at the end of a way of names, making the directories that are missing. -/
def place (node : Node) : List String → Node → Node
  | [], _ => node
  | name :: way, file _ => directory [(name, node.place way empty)]
  | name :: way, directory entries =>
      directory (Entries.insert name
        (node.place way ((Entries.lookup name entries).getD empty)) entries)

/-! ## Well-formed trees -/

/-- What a directory may call an entry. -/
def IsName (name : String) : Prop :=
  name ≠ "" ∧ name ≠ "." ∧ name ≠ ".." ∧ '/' ∉ name.toList

mutual

/-- Names are in order, tell the entries apart, and are no dots. -/
def WellFormed : Node → Prop
  | file _ => True
  | directory entries => Entries.Sorted entries ∧ AllWellFormed entries

def AllWellFormed : List (String × Node) → Prop
  | [] => True
  | (name, node) :: rest => IsName name ∧ node.WellFormed ∧ AllWellFormed rest

end

instance : DecidablePred IsName := fun name =>
  inferInstanceAs (Decidable (name ≠ "" ∧ name ≠ "." ∧ name ≠ ".." ∧ '/' ∉ name.toList))

mutual

def decideWellFormed : (node : Node) → Decidable node.WellFormed
  | file _ => isTrue trivial
  | directory entries =>
      have := decideAllWellFormed entries
      inferInstanceAs (Decidable
        (entries.Pairwise (fun a b => a.1 < b.1) ∧ AllWellFormed entries))

def decideAllWellFormed : (entries : List (String × Node)) → Decidable (AllWellFormed entries)
  | [] => isTrue trivial
  | (name, node) :: rest =>
      have := decideWellFormed node
      have := decideAllWellFormed rest
      inferInstanceAs (Decidable (IsName name ∧ node.WellFormed ∧ AllWellFormed rest))

end

instance : DecidablePred WellFormed := decideWellFormed

/-! ## Walks -/

mutual

/-- The files at or below a node, without those below a directory that is not entered. -/
def walk (enters : Path → Bool) (path : Path) : Node → List Path
  | file _ => [path]
  | directory entries => walkEach enters path entries

/-- The files at or below the entries of a directory. -/
def walkEach (enters : Path → Bool) (path : Path) : List (String × Node) → List Path
  | [] => []
  | (name, node) :: rest =>
      let here := path.join ⟨name⟩
      (if node.isFile || enters here then node.walk enters here else []) ++
        walkEach enters path rest

end

end Node

end ArtifactAtlas.FileTree
