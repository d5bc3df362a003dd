import ArtifactAtlas.Artifact.Contract
import ArtifactAtlas.Artifact.Failure

/-!
# Index tables

Source lists laid out from tables that say which path has which file index.
-/

namespace ArtifactAtlas

namespace SourceList

def largestIndex : Nat := 65535

/-- The list with a path in its place; places before it that are not there stay empty. -/
def put (list : SourceList) (index : Nat) (path : String) : SourceList :=
  if list.length ≤ index then list ++ List.replicate (index - list.length) "" ++ [path]
  else list.set index path

/-- The source list of a table that `origin` holds; later entries win. -/
def ofTable (origin : Path) (table : List (Nat × String)) : Except Failure SourceList :=
  table.foldlM (fun list (index, path) =>
    if index > largestIndex then .error (.build origin (.indexOutOfRange index path))
    else .ok (put list index path)) []

/-- The number under `id` of a source in a compiler's output. -/
def idOf? (source : Json) : Option Nat :=
  (source.get? "id").bind Json.natural?

/-- The source list of the `sources` of a compiler's output, by their numbers, or in their
order where a number is missing or comes twice. -/
def ofOutput (origin : Path) : Json → Except Failure SourceList
  | .object sources =>
      match sources.mapM fun (path, source) => (idOf? source).map (·, path) with
      | some table =>
          if (table.map Prod.fst).Nodup then ofTable origin table
          else .ok (sources.map Prod.fst)
      | none => .ok (sources.map Prod.fst)
  | _ => .ok []

end SourceList

end ArtifactAtlas
