/-!
# Numerals and keywords

Whole numbers as text.  Writing gives the shortest numeral.  Reading also takes
leading zeros and a plus sign, and a minus sign where the number is signed; it
refuses anything else, and any number outside the machine word asked for.

A keyword is known by its name, whatever the case of its ASCII letters.
-/

namespace ArtifactAtlas

namespace Numeral

/-- The decimal digits of a natural number, most significant first. -/
def ofNat (n : Nat) : List Char :=
  Nat.toDigits 10 n

def text (n : Nat) : String :=
  String.ofList (ofNat n)

def ofInt : Int → List Char
  | .ofNat n => ofNat n
  | .negSucc n => '-' :: ofNat (n + 1)

def digit? (c : Char) : Option Nat :=
  if c.isDigit then some (c.toNat - '0'.toNat) else none

/-- Continues a numeral that has the value `acc` so far. -/
def valueFrom (acc : Nat) : List Char → Option Nat
  | [] => some acc
  | c :: rest => (digit? c).bind fun d => valueFrom (acc * 10 + d) rest

/-- The value of a non-empty text of digits. -/
def digits? : List Char → Option Nat
  | [] => none
  | text => valueFrom 0 text

/-- An unsigned numeral, with an optional plus sign. -/
def natural? : List Char → Option Nat
  | '+' :: rest => digits? rest
  | text => digits? text

/-- A signed numeral, with an optional sign. -/
def signed? : List Char → Option Int
  | '-' :: rest => (digits? rest).map fun n => -(n : Int)
  | text => (natural? text).map Int.ofNat

/-- One past the largest unsigned 64-bit number. -/
def wordSize : Nat := 0x10000000000000000

/-- One past the largest signed 64-bit number. -/
def signedLimit : Nat := 0x8000000000000000

def word? (text : List Char) : Option UInt64 :=
  (natural? text).bind fun n => if n < wordSize then some (UInt64.ofNat n) else none

def signedWord? (text : List Char) : Option Int64 :=
  (signed? text).bind fun n =>
    if -signedLimit ≤ n ∧ n < signedLimit then some (Int64.ofInt n) else none

/-- A number that can count bytes or items: an unsigned 64-bit numeral. -/
def size? (text : List Char) : Option Nat :=
  (natural? text).filter (· < wordSize)

end Numeral

namespace Text

/-- The text with its ASCII letters in lower case. -/
def foldCase (text : String) : String :=
  String.ofList (text.toList.map Char.toLower)

/-- The first of some values whose name is that text, up to the case of ASCII letters. -/
def keyword? {α : Type} (values : List α) (name : α → String) (text : String) : Option α :=
  values.find? fun value => foldCase (name value) = foldCase text

end Text

end ArtifactAtlas
