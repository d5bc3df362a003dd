import ArtifactAtlas.Toml.Scalar
import ArtifactAtlas.Toml.Text
import ArtifactAtlas.Toml.Value

/-!
# TOML documents

A document is a list of statements, each on lines of its own: headers, which say
what table comes next, and keys with values, which go into that table.
-/

namespace ArtifactAtlas.Toml

open Reader

/-! ## Keys -/

def skipSpace : Reader Unit :=
  fun text => some ((), text.dropWhile isSpace)

def isKeyChar (c : Char) : Bool :=
  c.isAlphanum || c = '_' || c = '-'

def keyPart : Reader String := do
  let text ← get
  if text.head? = some '"' ∨ text.head? = some '\'' then lineText
  else
    match ← takeWhile isKeyChar with
    | [] => fail
    | part => return String.ofList part

def keyStep : Reader (String × Bool) := do
  skipSpace
  let part ← keyPart
  skipSpace
  return (part, !(← hasWord "."))

/-- Keys have fewer parts than this, and values are nested less deep. -/
def depthLimit : Nat := 80

/-- The parts of a key: those before the last one, and that. -/
def key : Reader (List String × String) := do
  let parts ← untilLast keyStep
  match parts.getLast? with
  | some last => if parts.length < depthLimit then return (parts.dropLast, last) else fail
  | none => fail

/-! ## Comments and blank lines -/

/-- A comment, if there is one. -/
def skipComment : Reader Unit := do
  if ← hasWord "#" then
    let _ ← takeWhile isTextChar

/-- What may come after a statement. -/
def trailing : Reader Unit := do
  skipSpace
  skipComment
  if (← peek).isSome then lineEnd

def gapStep : Reader (Unit × Bool) := do
  skipSpace
  match ← peek with
  | some '#' => do
      trailing
      return ((), false)
  | some '\n' | some '\r' => do
      lineEnd
      return ((), false)
  | _ => return ((), true)

/-- Skips blanks, line ends and comments. -/
def skipGap : Reader Unit := do
  let _ ← untilLast gapStep

/-! ## Values -/

def isScalarChar (c : Char) : Bool :=
  c.isAlphanum || ['+', '-', '_', '.', ':'].contains c

/-- A number, date or time.  A blank may come between a date and a time. -/
def scalarValue : Reader Toml := do
  let front ← takeWhile isScalarChar
  let text ← get
  let spaced := isDate front && text.head? = some ' ' && (text[1]?.any Char.isDigit)
  if spaced then
    let _ ← next
    let time ← takeWhile isScalarChar
    if isMoment (front ++ ' ' :: time) then return .scalar else fail
  else if isScalar front then return .scalar
  else fail

/-- The next item of an array, with what comes after it. -/
def itemStep (value : Reader Toml) : Reader (Toml × Bool) := do
  let item ← value
  skipGap
  if ← hasWord "]" then return (item, true)
  word ","
  skipGap
  return (item, ← hasWord "]")

/-- The items of an array, from after its bracket. -/
def arrayItems (value : Reader Toml) : Reader (List Toml) := do
  skipGap
  if ← hasWord "]" then return []
  untilLast (itemStep value)

/-- A key and its value. -/
def keyValue (value : Reader Toml) : Reader ((List String × String) × Toml) := do
  let key ← key
  word "="
  skipSpace
  return (key, ← value)

/-- The next entry of a table between braces. -/
def entryStep (value : Reader Toml) : Reader (((List String × String) × Toml) × Bool) := do
  let pair ← keyValue value
  skipSpace
  if ← hasWord "\x7d" then return (pair, true)
  word ","
  return (pair, false)

/-- The entries of a table between braces, from after the first. -/
def tableEntries (value : Reader Toml) : Reader Items := do
  skipSpace
  if ← hasWord "\x7d" then return []
  let pairs ← untilLast (entryStep value)
  let add (items : Items) (pair : (List String × String) × Toml) : Option Items :=
    assign pair.1.1 pair.1.2 pair.2 .header items
  match pairs.foldlM add [] with
  | some items => return items
  | none => fail

/-- A value that holds no others. -/
def leaf : Reader Toml := do
  match ← peek with
  | some '"' | some '\'' => return .string (← text)
  | some 't' => do
      word "true"
      return .bool true
  | some 'f' => do
      word "false"
      return .bool false
  | _ => scalarValue

/-- A value inside which so many levels of arrays and tables may come. -/
def value : Nat → Reader Toml
  | 0 => leaf
  | levels + 1 => do
      if ← hasWord "[" then return .array (← arrayItems (value levels))
      if ← hasWord "\x7b" then return .table (closeAll (← tableEntries (value levels)))
      leaf

/-! ## Statements -/

inductive Statement where
  /-- The header of a table. -/
  | table (way : List String) (key : String)
  /-- The header of one table of several. -/
  | next (way : List String) (key : String)
  | assign (way : List String) (key : String) (value : Toml)

def header : Reader Statement := do
  word "["
  if ← hasWord "[" then
    let (way, name) ← key
    word "]]"
    return .next way name
  else
    let (way, name) ← key
    word "]"
    return .table way name

/-- The next statement, if the text has not ended. -/
def statementStep : Reader (Option Statement × Bool) := do
  skipGap
  match ← peek with
  | none => return (none, true)
  | some '[' => do
      let statement ← header
      trailing
      return (some statement, false)
  | some _ => do
      let ((way, name), value) ← keyValue (value (depthLimit - 1))
      trailing
      return (some (.assign way name value), false)

/-- What has been read: the root table, and the way to the table that comes next. -/
structure Progress where
  root : Items
  current : List String

def Progress.start : Progress := ⟨[], []⟩

def Progress.add (progress : Progress) : Statement → Option Progress
  | .table way key => do
      let root ← alterAt .passed (openTable key) way .header progress.root
      return ⟨root, way ++ [key]⟩
  | .next way key => do
      let root ← alterAt .passed (openNext key) way .header progress.root
      return ⟨root, way ++ [key]⟩
  | .assign way key value => do
      let root ← alterAt .passed (assign way key value) progress.current .header progress.root
      return { progress with root }

/-- The root table of a document; none if the text is no document.  A byte order mark may
come first. -/
def parse? (text : String) : Option (List (String × Toml)) := do
  let chars := match text.toList with
    | '\ufeff' :: rest => rest
    | chars => chars
  let (statements, _) ← untilLast statementStep chars
  let progress ← (statements.filterMap id).foldlM Progress.add .start
  return closeAll progress.root

end ArtifactAtlas.Toml
