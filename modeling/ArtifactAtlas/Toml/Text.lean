import ArtifactAtlas.Json.Token
import ArtifactAtlas.Toml.Reader

/-!
# TOML texts

Texts stand between quotes.  Double quotes allow escapes, single quotes do not;
three quotes of a kind allow several lines.
-/

namespace ArtifactAtlas.Toml

open Reader

/-! ## Characters -/

/-- The characters that any text may hold: no control characters but the tab. -/
def isTextChar (c : Char) : Bool :=
  c = '\t' || (0x20 ≤ c.toNat && c.toNat ≠ 0x7f)

def isSpace (c : Char) : Bool :=
  c = ' ' || c = '\t'

def lineEnd : Reader Unit := do
  let _ ← hasWord "\r"
  word "\n"

/-- The character of a number, unless it is one half of a pair. -/
def scalar? (n : Nat) : Option Char :=
  if n < 0xd800 ∨ (0xdfff < n ∧ n < 0x110000) then some (Char.ofNat n) else none

/-- A character spelled with so many hexadecimal digits. -/
def hexChar (digits : Nat) : Reader Char :=
  fun text => do
    let front := text.take digits
    if front.length < digits then none
    let values ← front.mapM Json.hexDigit?
    let c ← scalar? (values.foldl (fun n d => n * 16 + d) 0)
    return (c, text.drop digits)

def escape : Reader Char := do
  match ← next with
  | 'b' => return '\x08'
  | 't' => return '\t'
  | 'n' => return '\n'
  | 'f' => return '\x0c'
  | 'r' => return '\r'
  | '"' => return '"'
  | '\\' => return '\\'
  | 'u' => hexChar 4
  | 'U' => hexChar 8
  | _ => fail

/-! ## One line -/

/-- A step through a text in double quotes, from after the opening one. -/
def basicStep : Reader (List Char × Bool) := do
  match ← next with
  | '"' => return ([], true)
  | '\\' => return ([← escape], false)
  | c => if isTextChar c then return ([c], false) else fail

/-- A step through a text in single quotes, from after the opening one. -/
def literalStep : Reader (List Char × Bool) := do
  let c ← next
  if c = '\'' then return ([], true)
  else if isTextChar c then return ([c], false)
  else fail

/-! ## Several lines -/

/-- Quotes inside a text of several lines; three or more end it, and up to two of these
still belong to the text. -/
def quotes (quote : Char) : Reader (List Char × Bool) := do
  let run ← takeWhile (· = quote)
  if run.length < 3 then return (run, false)
  else if run.length ≤ 5 then return (run.drop 3, true)
  else fail

/-- Whether a backslash comes next that ends the line. -/
def endsLine (text : List Char) : Bool :=
  match (text.drop 1).dropWhile isSpace with
  | '\n' :: _ | '\r' :: '\n' :: _ => text.head? = some '\\'
  | _ => false

/-- The text after blanks and line ends. -/
def afterLines : List Char → List Char
  | '\r' :: '\n' :: rest => afterLines rest
  | c :: rest => if isSpace c || c = '\n' then afterLines rest else c :: rest
  | [] => []

def skipLines : Reader Unit :=
  fun text => some ((), afterLines text)

/-- A step through a text of several lines: a line end counts as a line feed. -/
def linesStep (quote : Char) (escapes : Bool) : Reader (List Char × Bool) := do
  let text ← get
  if text.head? = some quote then quotes quote
  else if escapes && endsLine text then
    let _ ← next
    skipLines
    return ([], false)
  else
    match ← next with
    | '\n' => return (['\n'], false)
    | '\r' => do
        word "\n"
        return (['\n'], false)
    | c =>
        if c = '\\' ∧ escapes then return ([← escape], false)
        else if isTextChar c then return ([c], false)
        else fail

/-! ## Texts -/

def pieces (step : Reader (List Char × Bool)) : Reader String := do
  return String.ofList (← untilLast step).flatten

/-- A text of one line, as keys may be. -/
def lineText : Reader String := do
  match ← next with
  | '"' => pieces basicStep
  | '\'' => pieces literalStep
  | _ => fail

def text : Reader String := do
  if ← hasWord "\"\"\"" then
    let start ← get
    if start.head? = some '\n' ∨ start.head? = some '\r' then lineEnd
    pieces (linesStep '"' true)
  else if ← hasWord "'''" then
    let start ← get
    if start.head? = some '\n' ∨ start.head? = some '\r' then lineEnd
    pieces (linesStep '\'' false)
  else lineText

end ArtifactAtlas.Toml
