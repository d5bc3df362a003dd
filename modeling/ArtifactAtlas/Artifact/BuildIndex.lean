import ArtifactAtlas.Artifact.BuildFile

/-!
# Build indices

Build files grouped by the source that each declares, and found by their paths.
-/

namespace ArtifactAtlas

/-- Paths are told apart by their components. -/
abbrev PathKey := List Path.Component

structure BuildIndex where
  files : List BuildFile
  /-- The files of each declared source, in their order in `files`. -/
  groups : OrderedMap String (List BuildFile)
  /-- The last file of each path. -/
  byPath : OrderedMap PathKey BuildFile

namespace BuildIndex

/-- The index of files that each declare a source under `sourceKey`. -/
def ofFiles (sourceKey : String) (files : List BuildFile) : Except Failure BuildIndex := do
  let sources ← files.mapM (·.requiredText sourceKey)
  let declared := sources.zip files
  return {
    files
    groups := declared.foldl (fun groups (source, file) => groups.push source file) .empty
    byPath := .ofList (files.map fun file => (file.path.components, file)) }

/-- The index of the files of a build directory, of which there must be some. -/
def load (tree : FileTree) (directory : Path) (sourceKey : String) (skip : Path → Bool) :
    Except Failure BuildIndex := do
  let files ← BuildFile.readAll tree directory skip
  if files.isEmpty then throw (.build directory .noArtifacts)
  ofFiles sourceKey files

def sourcePaths (index : BuildIndex) : List String :=
  index.groups.keys

def declares (index : BuildIndex) (source : String) : Bool :=
  index.groups.contains source

def declaring (index : BuildIndex) (source : String) : List BuildFile :=
  (index.groups.get? source).getD []

/-- The first file that declares a source; it has the text and the tree of that source. -/
def first? (index : BuildIndex) (source : String) : Option BuildFile :=
  (index.declaring source).head?

def atPath? (index : BuildIndex) (path : Path) : Option BuildFile :=
  index.byPath.get? path.components

def sourceAt? (index : BuildIndex) (path : Path) (sourceKey : String) : Option String :=
  (index.atPath? path).bind (·.text? sourceKey)

end BuildIndex

end ArtifactAtlas
