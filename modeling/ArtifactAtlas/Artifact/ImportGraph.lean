import ArtifactAtlas.Artifact.BuildIndex
import ArtifactAtlas.Ast

/-!
# Import graphs

Which build files a build file imports, found from the import directives of its
syntax tree.  An import stands for the declared source of that name or, if there
is none, for the one with the same file name that agrees with it best from the
end.
-/

namespace ArtifactAtlas

/-! ## Resolving imports -/

/-- How many parts two source paths have in common at the end. -/
def sharedParts (a b : String) : Nat :=
  (((sourcePathParts a).reverse.zip (sourcePathParts b).reverse).takeWhile
    fun (x, y) => x = y).length

/-- The last of the texts with the greatest weight. -/
def lastHeaviest? (weight : String → Nat) (texts : List String) : Option String :=
  texts.foldl (fun best text =>
    match best with
    | none => some text
    | some old => if weight old ≤ weight text then some text else some old) none

/-- Finds the sources that imports stand for, and remembers what it had to search for. -/
structure ImportResolver where
  index : BuildIndex
  /-- The declared sources of each file name, in order. -/
  byFileName : OrderedMap String (List String)
  /-- What was found for the imports that are no declared sources. -/
  found : OrderedMap String (Option String)

namespace ImportResolver

def ofIndex (index : BuildIndex) : ImportResolver where
  index
  byFileName :=
    index.sourcePaths.foldl (fun groups source => groups.push (sourceFileName source) source)
      .empty
  found := .empty

/-- The declared source that an import stands for, and the resolver that has looked for it. -/
def resolve (resolver : ImportResolver) (path : String) : Option String × ImportResolver :=
  if resolver.index.declares path then (some path, resolver)
  else
    match resolver.found.get? path with
    | some source? => (source?, resolver)
    | none =>
        let candidates := (resolver.byFileName.get? (sourceFileName path)).getD []
        let source? := lastHeaviest? (sharedParts · path) candidates
        (source?, { resolver with found := resolver.found.insert path source? })

end ImportResolver

/-! ## Graphs -/

structure ImportGraph where
  /-- The paths of the files that each file imports. -/
  edges : OrderedMap PathKey (OrderedMap PathKey Path)
  /-- The imports of each file that stand for no declared source. -/
  unresolved : OrderedMap PathKey (List String)

namespace ImportGraph

def empty : ImportGraph := ⟨.empty, .empty⟩

def pathsDeclaring (index : BuildIndex) (source : String) : List (PathKey × Path) :=
  (index.declaring source).map fun file => (file.path.components, file.path)

/-- A graph in the making, with the resolver of its imports. -/
structure Draft where
  resolver : ImportResolver
  graph : ImportGraph

namespace Draft

/-- The files that a file imports as far as the draft knows. -/
def importsAt (draft : Draft) (key : PathKey) : OrderedMap PathKey Path :=
  (draft.graph.edges.get? key).getD .empty

def setImports (draft : Draft) (key : PathKey) (imports : OrderedMap PathKey Path) : Draft :=
  { draft with graph.edges := draft.graph.edges.insert key imports }

/-- Adds an import of a file. -/
def addImport (key : PathKey) (draft : Draft) (path : String) : Draft :=
  match draft.resolver.resolve path with
  | (some source, resolver) =>
      { draft with resolver }.setImports key
        ((draft.importsAt key).insertNewAll (pathsDeclaring resolver.index source))
  | (none, resolver) =>
      { draft with resolver, graph.unresolved := draft.graph.unresolved.push key path }

/-- Adds the imports of a file.  A file imports neither itself nor one of the same source. -/
def addFile (sourceKey : String) (draft : Draft) (file : BuildFile) : Draft :=
  let key := file.path.components
  let draft := draft.setImports key (draft.importsAt key)
  match file.data.get? "ast" with
  | none => draft
  | some ast =>
      let draft := (Ast.importPaths ast).foldl (addImport key) draft
      let own := (file.text? sourceKey).toList.flatMap (pathsDeclaring draft.resolver.index)
      draft.setImports key
        ((key :: own.map Prod.fst).foldl (fun edges key => edges.erase key)
          (draft.importsAt key))

end Draft

def ofIndex (index : BuildIndex) (sourceKey : String) : ImportGraph :=
  (index.files.foldl (Draft.addFile sourceKey) ⟨.ofIndex index, .empty⟩).graph

def importsOf (graph : ImportGraph) (path : Path) : List Path :=
  ((graph.edges.get? path.components).getD .empty).values

def unresolvedOf (graph : ImportGraph) (path : Path) : List String :=
  (graph.unresolved.get? path.components).getD []

end ImportGraph

end ArtifactAtlas
