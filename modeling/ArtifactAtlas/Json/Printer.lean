import ArtifactAtlas.Decimal.Shortest
import ArtifactAtlas.Json.Value
import ArtifactAtlas.Text.Numeral
import ArtifactAtlas.Text.Split

/-!
# Writing JSON

Two layouts: everything on one line without blanks, or one item a line indented
by two blanks a level.  Texts escape quotes, backslashes and control characters
and nothing else.
-/

namespace ArtifactAtlas.Json

/-! ## Numbers -/

/-- The leading digit of a number written without exponent stands for at least this power of ten. -/
def leastPlainPower : Int := -5

/-- The leading digit of a number written without exponent stands for at most this power of ten. -/
def greatestPlainPower : Int := 15

def zeros (count : Nat) : List Char :=
  List.replicate count '0'

/-- Digits with a point in front of the one that stands for the first negative power. -/
def plainDigits (digits : List Char) (leading : Int) : List Char :=
  if leading < 0 then
    ['0', '.'] ++ zeros (-leading - 1).toNat ++ digits
  else
    let whole := leading.toNat + 1
    if digits.length ≤ whole then digits ++ zeros (whole - digits.length) ++ ['.', '0']
    else digits.take whole ++ '.' :: digits.drop whole

/-- Digits with a point after the first, and an exponent that always has a sign. -/
def exponentDigits (digits : List Char) (leading : Int) : List Char :=
  let sign := if leading < 0 then '-' else '+'
  let point := if digits.length ≤ 1 then [] else '.' :: digits.drop 1
  digits.take 1 ++ point ++ 'e' :: sign :: Numeral.ofNat leading.natAbs

/-- The digits without the zeros at their end. -/
def significantDigits (coefficient : Nat) : List Char :=
  ((Numeral.ofNat coefficient).reverse.dropWhile (· = '0')).reverse

def magnitudeDigits (a : Decimal.Magnitude) : List Char :=
  if a.mantissa = 0 then ['0', '.', '0']
  else
    let decimal := a.shortest
    let leading := decimal.power + (Decimal.digitCount decimal.coefficient - 1 : Nat)
    let digits := significantDigits decimal.coefficient
    if leastPlainPower ≤ leading ∧ leading ≤ greatestPlainPower then
      plainDigits digits leading
    else exponentDigits digits leading

def Number.chars : Number → List Char
  | .natural n => Numeral.ofNat n
  | .negative n => '-' :: Numeral.ofNat n
  | .real x => (if x.negative then ['-'] else []) ++ magnitudeDigits x.magnitude

/-! ## Texts -/

def hexDigit (n : Nat) : Char :=
  Nat.digitChar n

def escapeChar (c : Char) : List Char :=
  if c = '"' then ['\\', '"']
  else if c = '\\' then ['\\', '\\']
  else if c = '\x08' then ['\\', 'b']
  else if c = '\t' then ['\\', 't']
  else if c = '\n' then ['\\', 'n']
  else if c = '\x0c' then ['\\', 'f']
  else if c = '\r' then ['\\', 'r']
  else if c.toNat < 0x20 then
    ['\\', 'u', '0', '0', hexDigit (c.toNat / 16), hexDigit (c.toNat % 16)]
  else [c]

def quoted (s : String) : List Char :=
  '"' :: s.toList.flatMap escapeChar ++ ['"']

/-! ## Values -/

mutual

def compactChars : Json → List Char
  | .null => "null".toList
  | .bool b => if b then "true".toList else "false".toList
  | .number n => n.chars
  | .string s => quoted s
  | .array items => '[' :: Text.join [','] (compactItems items) ++ [']']
  | .object members => '\x7b' :: Text.join [','] (compactMembers members) ++ ['\x7d']

def compactItems : List Json → List (List Char)
  | [] => []
  | value :: rest => compactChars value :: compactItems rest

def compactMembers : List (String × Json) → List (List Char)
  | [] => []
  | (name, value) :: rest => (quoted name ++ ':' :: compactChars value) :: compactMembers rest

end

/-- The end of a line and the indentation of the next. -/
def lineBreak (level : Nat) : List Char :=
  '\n' :: List.replicate (2 * level) ' '

/-- Lines between brackets; no lines leave the brackets next to each other. -/
def block (level : Nat) (opening closing : Char) (lines : List (List Char)) : List Char :=
  if lines.isEmpty then [opening, closing]
  else
    opening :: lineBreak (level + 1) ++ Text.join (',' :: lineBreak (level + 1)) lines ++
      lineBreak level ++ [closing]

mutual

def prettyChars (level : Nat) : Json → List Char
  | .null => "null".toList
  | .bool b => if b then "true".toList else "false".toList
  | .number n => n.chars
  | .string s => quoted s
  | .array items => block level '[' ']' (prettyItems (level + 1) items)
  | .object members => block level '\x7b' '\x7d' (prettyMembers (level + 1) members)

def prettyItems (level : Nat) : List Json → List (List Char)
  | [] => []
  | value :: rest => prettyChars level value :: prettyItems level rest

def prettyMembers (level : Nat) : List (String × Json) → List (List Char)
  | [] => []
  | (name, value) :: rest =>
      (quoted name ++ ':' :: ' ' :: prettyChars level value) :: prettyMembers level rest

end

/-- The value on one line. -/
def compact (value : Json) : String :=
  String.ofList (compactChars value)

/-- The value with one item a line. -/
def pretty (value : Json) : String :=
  String.ofList (prettyChars 0 value)

end ArtifactAtlas.Json
