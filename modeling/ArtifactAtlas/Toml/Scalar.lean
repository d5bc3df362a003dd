import ArtifactAtlas.Text.Numeral
import ArtifactAtlas.Text.Split

/-!
# TOML numbers and times

Which texts are numbers, dates or times.  What they stand for is never asked.
-/

namespace ArtifactAtlas.Toml

/-! ## Whole numbers -/

/-- Digits of some base, in groups with single underscores between them. -/
def isGrouped (isDigit : Char → Bool) (text : List Char) : Bool :=
  (Text.split '_' text).all fun group => !group.isEmpty && group.all isDigit

def ungrouped (text : List Char) : List Char :=
  text.filter (· ≠ '_')

def unsigned : List Char → List Char
  | '+' :: rest => rest
  | '-' :: rest => rest
  | text => text

/-- Decimal digits without needless zeros in front. -/
def isPlain (text : List Char) : Bool :=
  isGrouped Char.isDigit text && (text.head? ≠ some '0' || text = ['0'])

def hexValue (c : Char) : Nat :=
  if c.isDigit then c.toNat - '0'.toNat else c.toLower.toNat - 'a'.toNat + 10

def isHex (c : Char) : Bool :=
  c.isDigit || ('a' ≤ c.toLower && c.toLower ≤ 'f')

/-- Grouped digits of a base whose number fits a signed word. -/
def isBased (base : Nat) (isDigit : Char → Bool) (text : List Char) : Bool :=
  isGrouped isDigit text &&
    (ungrouped text).foldl (fun n c => n * base + hexValue c) 0 < Numeral.signedLimit

def isWhole : List Char → Bool
  | '0' :: 'x' :: rest => isBased 16 isHex rest
  | '0' :: 'o' :: rest => isBased 8 (fun c => '0' ≤ c && c ≤ '7') rest
  | '0' :: 'b' :: rest => isBased 2 (fun c => c = '0' || c = '1') rest
  | text => isPlain (unsigned text) && (Numeral.signedWord? (ungrouped text)).isSome

/-! ## Other numbers -/

/-- The least number that rounds to infinity in binary floating point. -/
def infinityBound : Nat := Nat.pow 2 1024 - Nat.pow 2 970

/-- Whether a decimal number is small enough to be finite. -/
def isFinite (whole fraction : List Char) (exponent : Int) : Bool :=
  let digits := ((ungrouped whole ++ ungrouped fraction).dropWhile (· = '0'))
  let coefficient := (Numeral.digits? digits).getD 0
  let power := exponent - (ungrouped fraction).length
  if coefficient = 0 ∨ power + digits.length < 309 then true
  else if power + digits.length > 309 then false
  else if 0 ≤ power then coefficient * Nat.pow 10 power.toNat < infinityBound
  else coefficient < infinityBound * Nat.pow 10 (-power).toNat

def isExponent (text : List Char) : Bool :=
  isGrouped Char.isDigit (unsigned text)

/-- Whether a decimal number is in range: only above is there an end to it. -/
def isInRange (negative : Bool) (whole fraction : List Char) (exponent : Int) : Bool :=
  negative || isFinite whole fraction exponent

/-- A number with a fraction, an exponent or both. -/
def isReal (text : List Char) : Bool :=
  let negative := text.head? = some '-'
  let text := unsigned text
  if text = "inf".toList ∨ text = "nan".toList then true
  else
    let (mantissa, exponent) :=
      match Text.split 'e' (text.map fun c => if c = 'E' then 'e' else c) with
      | [mantissa, exponent] => (mantissa, some exponent)
      | [mantissa] => (mantissa, none)
      | _ => ([], none)
    let power := ((exponent.map ungrouped).bind Numeral.signed?).getD 0
    exponent.all isExponent &&
      match Text.split '.' mantissa with
      | [whole] => exponent.isSome && isPlain whole && isInRange negative whole [] power
      | [whole, fraction] =>
          isPlain whole && isGrouped Char.isDigit fraction &&
            isInRange negative whole fraction power
      | _ => false

/-! ## Dates and times -/

/-- A number of exactly so many digits. -/
def fixed? (count : Nat) (text : List Char) : Option Nat :=
  if text.length = count then Numeral.digits? text else none

def daysOf (year month : Nat) : Nat :=
  if month = 2 then
    if year % 4 = 0 ∧ (year % 100 ≠ 0 ∨ year % 400 = 0) then 29 else 28
  else if month ∈ [4, 6, 9, 11] then 30
  else 31

def isDate (text : List Char) : Bool :=
  match Text.split '-' text with
  | [year, month, day] =>
      match fixed? 4 year, fixed? 2 month, fixed? 2 day with
      | some year, some month, some day =>
          1 ≤ month && month ≤ 12 && 1 ≤ day && day ≤ daysOf year month
      | _, _, _ => false
  | _ => false

/-- Two digits of at most some number. -/
def isPart (greatest : Nat) (text : List Char) : Bool :=
  (fixed? 2 text).any (· ≤ greatest)

def isTime (text : List Char) : Bool :=
  match Text.split ':' text with
  | [hour, minute, second] =>
      isPart 23 hour && isPart 59 minute &&
        match Text.split '.' second with
        | [whole] => isPart 60 whole
        | [whole, fraction] =>
            isPart 60 whole && !fraction.isEmpty && fraction.all Char.isDigit
        | _ => false
  | _ => false

/-- How far from universal time a clock is. -/
def isOffset (text : List Char) : Bool :=
  match text with
  | ['Z'] | ['z'] => true
  | sign :: rest =>
      (sign = '+' || sign = '-') &&
        match Text.split ':' rest with
        | [hour, minute] => isPart 23 hour && isPart 59 minute
        | _ => false
  | [] => false

/-- A time with or without an offset. -/
def isOffsetTime (text : List Char) : Bool :=
  isTime text ||
    let time := text.takeWhile fun c => c.isDigit || c = ':' || c = '.'
    isTime time && isOffset (text.drop time.length)

def isMoment (text : List Char) : Bool :=
  isDate text || isTime text ||
    (isDate (text.take 10) && ['T', 't', ' '].contains (text[10]?.getD 'x') &&
      isOffsetTime (text.drop 11))

/-- A number, date or time. -/
def isScalar (text : List Char) : Bool :=
  isWhole text || isReal text || isMoment text

end ArtifactAtlas.Toml
