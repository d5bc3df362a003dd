import ArtifactAtlas.Json.Value
import ArtifactAtlas.Text.Numeral
import ArtifactAtlas.Text.Split

/-!
# Syntax trees of compilers

Compilers write syntax trees as JSON in two ways.  A compact node has its fields
among its members and names its type `nodeType`; a legacy node has its fields
under `attributes`, its children under `children` and names its type `name`.
-/

namespace ArtifactAtlas.Ast

def nodeType? (members : List (String × Json)) : Option String :=
  ((Entries.lookup "nodeType" members).or (Entries.lookup "name" members)).bind Json.string?

/-- A field of a node, in either way of writing. -/
def attribute? (node : Json) (name : String) : Option Json :=
  (node.get? name).or (node.path? ["attributes", name])

def absolutePath? (node : Json) : Option String :=
  (attribute? node "absolutePath").bind Json.string?

mutual

/-- The paths of the files that a tree imports, in order. -/
def importPaths : Json → List String
  | .array items => importPathsEach items
  | .object members =>
      if nodeType? members = some "ImportDirective" then
        (absolutePath? (.object members)).toList
      else importPathsUnder "nodes" members ++ importPathsUnder "children" members
  | _ => []

def importPathsEach : List Json → List String
  | [] => []
  | node :: rest => importPaths node ++ importPathsEach rest

/-- The imports in the first member of that name. -/
def importPathsUnder (name : String) : List (String × Json) → List String
  | [] => []
  | (key, node) :: rest =>
      if key = name then importPaths node else importPathsUnder name rest

end

/-- The file index that the root of a tree records as the third part of its `src`. -/
def fileIndex? (root : Json) : Option Nat := do
  let src ← (root.get? "src").bind Json.string?
  let index ← (Text.split ':' src.toList)[2]?
  Numeral.size? index

/-- The object with a new member in place of an old one; nothing else has members. -/
def putField (name : String) (value : Json) : Json → Json
  | .object members => .object (Entries.put name value members)
  | node => node

/-- Gives the file of the root a new path; none if it has no path or the path stays. -/
def rewritePath? (rewrite : String → Option String) (root : Json) : Option Json :=
  match root.get? "absolutePath" with
  | some path => do
      let path ← path.string?.bind rewrite
      return putField "absolutePath" (.string path) root
  | none => do
      let attributes ← root.get? "attributes"
      let path ← ((attributes.get? "absolutePath").bind Json.string?).bind rewrite
      return putField "attributes" (putField "absolutePath" (.string path) attributes) root

end ArtifactAtlas.Ast
