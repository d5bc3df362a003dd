import ArtifactAtlas.FileTree.Node

/-!
# Access by path

A path is followed piece by piece, each slash asking for a directory.  What goes
wrong first decides the fault.
-/

namespace ArtifactAtlas

namespace FileTree

/-- Why a path cannot be followed or what it leads to not be used. -/
inductive Fault where
  | notFound
  | notADirectory
  | isADirectory
  /-- The content is no UTF-8 text. -/
  | invalidData
  /-- The path has a null character. -/
  | invalidInput
  /-- The path or a name in it is too long. -/
  | invalidFilename
  deriving DecidableEq, Repr

def Fault.tag : Fault → String
  | .notFound => "io:NotFound"
  | .notADirectory => "io:NotADirectory"
  | .isADirectory => "io:IsADirectory"
  | .invalidData => "io:InvalidData"
  | .invalidInput => "io:InvalidInput"
  | .invalidFilename => "io:InvalidFilename"

/-- A name takes at most this many bytes. -/
def longestName : Nat := 255

/-- A path takes fewer bytes than this. -/
def pathLimit : Nat := 4096

end FileTree

/-- The directories and files there are, and the directory that relative paths start from. -/
structure FileTree where
  root : FileTree.Node
  /-- The names that lead from the root to the working directory. -/
  workingDirectory : List String := []

namespace FileTree

/-- A place in a tree: the names that lead to it, the last one first, and what is there. -/
structure Place where
  trail : List String
  node : Node

/-- The node at the end of a way of names. -/
def nodeAt? (names : List String) (node : Node) : Option Node :=
  names.foldl (fun at? name => at?.bind (·.child? name)) (some node)

/-- The tree with one more node at the end of a way of names.  A directory that is known
already stays as it is when nothing is known of what is in it. -/
def add (tree : FileTree) (way : List String) (node : Node) : FileTree :=
  match nodeAt? way tree.root, node with
  | some (.directory _), .directory [] => tree
  | _, node => { tree with root := node.place way tree.root }

namespace Place

/-- The directory above; the root is above itself. -/
def above (root : Node) (place : Place) : Place :=
  match place.trail with
  | [] => place
  | _ :: trail => ⟨trail, (nodeAt? trail.reverse root).getD .empty⟩

def step (root : Node) (place : Place) (piece : List Char) : Except Fault Place :=
  match place.node with
  | .file _ => .error .notADirectory
  | .directory entries =>
      if piece = [] ∨ piece = ['.'] then .ok place
      else if piece = ['.', '.'] then .ok (place.above root)
      else
        let name := String.ofList piece
        if name.utf8ByteSize > longestName then .error .invalidFilename
        else
          match Entries.lookup name entries with
          | none => .error .notFound
          | some node => .ok ⟨name :: place.trail, node⟩

end Place

/-- The fault of a path that cannot name anything. -/
def textFault? (path : Path) : Option Fault :=
  if path.text.toList.contains '\x00' then some .invalidInput
  else if path.text = "" then some .notFound
  else if path.text.utf8ByteSize ≥ pathLimit then some .invalidFilename
  else none

def startOf (tree : FileTree) (path : Path) : Place :=
  if path.isAbsolute then ⟨[], tree.root⟩
  else
    ⟨tree.workingDirectory.reverse, (nodeAt? tree.workingDirectory tree.root).getD .empty⟩

def follow (tree : FileTree) (start : Place) (pieces : List (List Char)) : Except Fault Place :=
  pieces.foldlM (Place.step tree.root) start

def find (tree : FileTree) (path : Path) : Except Fault Place :=
  match textFault? path with
  | some fault => .error fault
  | none => tree.follow (tree.startOf path) (Text.split '/' path.text.toList)

def node? (tree : FileTree) (path : Path) : Option Node :=
  (tree.find path).toOption.map (·.node)

def isFile (tree : FileTree) (path : Path) : Bool :=
  (tree.node? path).any (·.isFile)

def isDirectory (tree : FileTree) (path : Path) : Bool :=
  (tree.node? path).any (·.isDirectory)

/-! ## Reading -/

/-- The absolute path, without dots, of what a path leads to. -/
def canonical (tree : FileTree) (path : Path) : Except Fault Path :=
  (tree.find path).map fun place =>
    .ofComponents (.root :: place.trail.reverse.map .name)

def readText (tree : FileTree) (path : Path) : Except Fault String :=
  match tree.find path with
  | .error fault => .error fault
  | .ok ⟨_, .directory _⟩ => .error .isADirectory
  | .ok ⟨_, .file content⟩ =>
      match String.fromUTF8? content with
      | some text => .ok text
      | none => .error .invalidData

/-! ## Writing -/

/-- The pieces of a path and whether slashes follow the last of them. -/
def pieces (path : Path) : List (List Char) × Bool :=
  let all := Text.split '/' path.text.toList
  let kept := Text.dropTrailingEmpty all
  (kept, kept.length < all.length)

/-- The tree with a text as the content of a file, which is made if it is not there. -/
def writeText (tree : FileTree) (path : Path) (text : String) : Except Fault FileTree :=
  match textFault? path with
  | some fault => .error fault
  | none => do
      let (pieces, slashed) := pieces path
      match pieces.reverse with
      | [] => throw .isADirectory
      | last :: before =>
          let place ← tree.follow (tree.startOf path) before.reverse
          let name := String.ofList last
          if !place.node.isDirectory then throw .notADirectory
          if last = [] ∨ last = ['.'] ∨ last = ['.', '.'] ∨ slashed then throw .isADirectory
          if name.utf8ByteSize > longestName then throw .invalidFilename
          if (place.node.child? name).any (·.isDirectory) then throw .isADirectory
          let file := Node.file text.toUTF8
          return { tree with root := file.place (place.trail.reverse ++ [name]) tree.root }

/-! ## Walking -/

/-- The name of the directories that hold installed packages. -/
def packageDirectory : String := "node_modules"

/-- The Solidity sources that a target stands for: a file is itself, a directory the
`.sol` files below it, except those in directories of installed packages. -/
def solidityFiles (tree : FileTree) (target : Path) : List Path :=
  match tree.node? target with
  | none => []
  | some (.file _) => [target]
  | some (.directory entries) =>
      let enters (directory : Path) : Bool :=
        directory.fileName?.getD directory.text ≠ packageDirectory
      if enters target then
        (Node.walkEach enters target entries).filter (·.extension? = some "sol")
      else []

/-- The `.json` files at or below a path, except those in directories to skip. -/
def jsonFiles (tree : FileTree) (top : Path) (skip : Path → Bool) : Except Fault (List Path) :=
  (tree.find top).map fun place =>
    (place.node.walk (fun directory => !skip directory) top).filter
      (·.extension? = some "json")

end FileTree

end ArtifactAtlas
