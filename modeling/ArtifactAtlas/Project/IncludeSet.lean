import ArtifactAtlas.FileTree.Access

/-!
# Include sets

The sources whose contracts are wanted: all of them, or those that some targets
stand for.
-/

namespace ArtifactAtlas

inductive IncludeSet where
  | all
  | only (files : OrderedSet (List Path.Component))

namespace IncludeSet

/-- The sources that targets, seen from a project directory, stand for; without targets all. -/
def ofTargets (tree : FileTree) (targets : List Path) (directory : Path) : IncludeSet :=
  if targets.isEmpty then .all
  else
    let files := targets.flatMap fun target =>
      tree.solidityFiles (target.absoluteFrom directory)
    .only (OrderedSet.ofList (files.map fun file => (file.absoluteFrom directory).components))

/-- Whether a source path, seen from a project directory, is included. -/
def includes (set : IncludeSet) (source : String) (directory : Path) : Bool :=
  match set with
  | .all => true
  | .only files => files.contains ((Path.mk source).absoluteFrom directory).components

/-- The included files in order, unless all are included. -/
def files? : IncludeSet → Option (List String)
  | .all => none
  | .only files => some (files.keys.map fun components => (Path.ofComponents components).text)

end IncludeSet

end ArtifactAtlas
