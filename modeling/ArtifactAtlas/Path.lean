import ArtifactAtlas.OrderedMap
import ArtifactAtlas.Text.Quoted
import ArtifactAtlas.Text.Split

/-!
# Paths

A path is a text that is read as components.  Repeated slashes, slashes at the
end and dots after the first component do not count, so paths of different texts
can have the same components; they then name the same place.  Paths in documents are texts.
A machine can have paths of any bytes, which are read as texts that have a character for
each byte.
-/

namespace ArtifactAtlas

structure Path where
  text : String
  deriving DecidableEq, Repr, Inhabited

namespace Path

/-! ## Components -/

inductive Component where
  /-- The slash that begins an absolute path. -/
  | root
  /-- A dot that begins a relative path. -/
  | current
  /-- Two dots. -/
  | parent
  | name (text : String)
  deriving DecidableEq, Repr

namespace Component

def text : Component → String
  | root => "/"
  | current => "."
  | parent => ".."
  | name text => text

def isName : Component → Bool
  | name _ => true
  | _ => false

/-- Components of different kinds come in this order. -/
def rank : Component → Nat
  | root => 0
  | current => 1
  | parent => 2
  | name _ => 3

instance : LT Component :=
  ⟨fun a b => a.rank < b.rank ∨ (a.rank = b.rank ∧ a.text < b.text)⟩

instance : DecidableLT Component := fun a b =>
  inferInstanceAs (Decidable (a.rank < b.rank ∨ (a.rank = b.rank ∧ a.text < b.text)))

theorem eq_of_rank_text {a b : Component} (hrank : a.rank = b.rank) (htext : a.text = b.text) :
    a = b := by
  cases a <;> cases b <;> simp_all [rank, text]

instance : KeyOrder Component where
  irrefl a h := by
    rcases h with h | ⟨_, h⟩
    · exact Nat.lt_irrefl _ h
    · exact KeyOrder.irrefl _ h
  trans hab hbc := by
    rcases hab with hab | ⟨heq, hab⟩
    · rcases hbc with hbc | ⟨heq', _⟩
      · exact .inl (Nat.lt_trans hab hbc)
      · exact .inl (heq' ▸ hab)
    · rcases hbc with hbc | ⟨heq', hbc⟩
      · exact .inl (heq ▸ hbc)
      · exact .inr ⟨heq.trans heq', KeyOrder.trans hab hbc⟩
  connex hab hba := by
    have hrank := KeyOrder.connex (fun h => hab (.inl h)) (fun h => hba (.inl h))
    exact eq_of_rank_text hrank
      (KeyOrder.connex (fun h => hab (.inr ⟨hrank, h⟩)) fun h => hba (.inr ⟨hrank.symm, h⟩))

end Component

/-- What a piece between slashes says, after the first piece. -/
def component? : List Char → Option Component
  | [] => none
  | ['.'] => none
  | ['.', '.'] => some .parent
  | name => some (.name (String.ofList name))

/-- The component that the first piece of a relative path adds. -/
def leading? : List Char → Option Component
  | ['.'] => some .current
  | piece => component? piece

def componentsOf (text : List Char) : List Component :=
  match text, Text.split '/' text with
  | '/' :: _, pieces => .root :: pieces.filterMap component?
  | _, [] => []
  | _, first :: rest => (leading? first).toList ++ rest.filterMap component?

def components (path : Path) : List Component :=
  componentsOf path.text.toList

def isAbsolute (path : Path) : Bool :=
  ['/'].isPrefixOf path.text.toList

/-- Whether the path is more than a way up, down or to the root. -/
def hasName (path : Path) : Bool :=
  path.components.any (·.isName)

/-- The names on the path, without dots and the root. -/
def names (path : Path) : List String :=
  path.components.filterMap fun
    | .name text => some text
    | _ => none

/-! ## Putting paths together -/

/-- `tail` as seen from `base`; an absolute path is the same from everywhere. -/
def join (base tail : Path) : Path :=
  if tail.isAbsolute then tail
  else if base.text = "" ∨ base.text.toList.getLast? = some '/' then ⟨base.text ++ tail.text⟩
  else ⟨base.text ++ "/" ++ tail.text⟩

/-- The text of components, with a slash between each two that have none. -/
def renderChars : List Component → List Char
  | .root :: rest => '/' :: Text.join ['/'] (rest.map (·.text.toList))
  | components => Text.join ['/'] (components.map (·.text.toList))

/-- The plainest path with these components. -/
def ofComponents (components : List Component) : Path :=
  ⟨String.ofList (renderChars components)⟩

/-! ## Resolving dots -/

/-- One step on the way along a path; `trail` has the last component first. -/
def follow (trail : List Component) : Component → List Component
  | .current => trail
  | .parent =>
      match trail with
      | [] => [.parent]
      | [.root] => [.parent, .root]
      | _ :: trail => trail
  | component => component :: trail

def resolveDots (components : List Component) : List Component :=
  (components.foldl follow []).reverse

/-- The path without dots, as far as its text alone tells. -/
def normalize (path : Path) : Path :=
  ofComponents (resolveDots path.components)

/-- The path as seen from a directory, without dots. -/
def absoluteFrom (path base : Path) : Path :=
  normalize (base.join path)

/-! ## Comparing paths -/

/-- The components that two lists have in common at the front. -/
def commonComponents : List Component → List Component → List Component
  | a :: as, b :: bs => if a = b then a :: commonComponents as bs else []
  | _, _ => []

/-- The longest path that leads to all of some paths; none if they share nothing. -/
def common? : List Path → Option Path
  | [] => none
  | first :: rest =>
      match rest.foldl (fun shared path => commonComponents shared path.components)
          first.components with
      | [] => none
      | shared => some (ofComponents shared)

/-- What is left of the path below a directory that it leads through. -/
def below? (path directory : Path) : Option Path :=
  (directory.components.isPrefixOf? path.components).map ofComponents

/-- Whether the last components of the path are those of `tail`. -/
def endsWith (path tail : Path) : Bool :=
  tail.components.isSuffixOf path.components

/-! ## File names -/

def fileName? (path : Path) : Option String :=
  match path.components.getLast? with
  | some (.name text) => some text
  | _ => none

/-- What follows the last dot of a file name, unless nothing comes before that dot. -/
def extensionOf? (name : List Char) : Option (List Char) :=
  match (Text.split '.' name).reverse with
  | last :: before :: rest => if rest = [] ∧ before = [] then none else some last
  | _ => none

def extension? (path : Path) : Option String :=
  (path.fileName?.bind fun name => extensionOf? name.toList).map String.ofList

/-- The path with another extension; its text must end with its file name. -/
def withExtension (path : Path) (ext : String) : Path :=
  match path.extension? with
  | none => path
  | some old =>
      ⟨String.ofList (path.text.toList.take (path.text.length - old.length)) ++ ext⟩

/-- The path between quotes, as messages show it. -/
def quoted (path : Path) : String :=
  Text.quote path.text

end Path

/-! ## Source paths -/

/-- The names on a path as sources are named: slashes of both kinds separate. -/
def sourcePathParts (path : String) : List (List Char) :=
  Text.split '/' (path.toList.map fun c => if c = '\\' then '/' else c)

/-- The name at the end of a source path. -/
def sourceFileName (path : String) : String :=
  String.ofList ((sourcePathParts path).getLast?.getD [])

end ArtifactAtlas
