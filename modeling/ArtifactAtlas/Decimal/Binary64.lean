/-!
# Binary floating point numbers of 64 bits

A finite number is a sign and a magnitude `mantissa * 2 ^ exponent` with a
mantissa below `2 ^ 53` and an exponent from `-1074` to `971`.  Products and
quotients are exact ratios rounded once, to the nearest magnitude and on a tie
to the even mantissa.
-/

namespace ArtifactAtlas.Decimal

/-- The quotient rounded to the nearest whole number, ties to the even one. -/
def roundHalfEven (num den : Nat) : Nat :=
  let quotient := num / den
  let twice := 2 * (num % den)
  if twice < den then quotient
  else if den < twice then quotient + 1
  else quotient + quotient % 2

/-- `num / den` with the power `2 ^ shift` moved into one of its sides. -/
def scaleByTwo (num den : Nat) (shift : Int) : Nat × Nat :=
  if 0 ≤ shift then (num * Nat.pow 2 shift.toNat, den)
  else (num, den * Nat.pow 2 (-shift).toNat)

/-- The largest `k` with `2 ^ k ≤ num / den`, for a positive ratio. -/
def floorLogTwo (num den : Nat) : Int :=
  let guess : Int := (num.log2 : Int) - den.log2
  let (n, d) := scaleByTwo num den (-guess)
  if d ≤ n then guess else guess - 1

structure Magnitude where
  mantissa : Nat
  exponent : Int
  deriving DecidableEq, Repr

namespace Magnitude

def leastExponent : Int := -1074

def greatestExponent : Int := 971

def mantissaBits : Nat := 53

/-- The least mantissa above the least exponent; mantissas stay below twice of it. -/
def leastNormal : Nat := Nat.pow 2 (mantissaBits - 1)

def zero : Magnitude := ⟨0, leastExponent⟩

/-- The magnitude nearest to a ratio; none when the ratio is out of range. -/
def ofRatio? (num den : Nat) : Option Magnitude :=
  if num = 0 then some zero
  else
    let exponent := max leastExponent (floorLogTwo num den - (mantissaBits - 1))
    let (n, d) := scaleByTwo num den (-exponent)
    let mantissa := roundHalfEven n d
    let result : Magnitude :=
      if mantissa = 2 * leastNormal then ⟨leastNormal, exponent + 1⟩
      else ⟨mantissa, exponent⟩
    if result.exponent ≤ greatestExponent then some result else none

def ofNat? (n : Nat) : Option Magnitude :=
  ofRatio? n 1

def mul? (a b : Magnitude) : Option Magnitude :=
  let (n, d) := scaleByTwo (a.mantissa * b.mantissa) 1 (a.exponent + b.exponent)
  ofRatio? n d

def div? (a b : Magnitude) : Option Magnitude :=
  let (n, d) := scaleByTwo a.mantissa b.mantissa (a.exponent - b.exponent)
  ofRatio? n d

/-- The largest power of ten that a magnitude can hold. -/
def greatestPowerOfTen : Nat := 308

def powerOfTen? (power : Nat) : Option Magnitude :=
  ofNat? (Nat.pow 10 power)

/-- Divides by the largest power of ten so many times, or until nothing is left. -/
def divideOut? : Nat → Magnitude → Option Magnitude
  | 0, a => some a
  | times + 1, a =>
      if a.mantissa = 0 then some a
      else
        ((powerOfTen? greatestPowerOfTen).bind a.div?).bind (divideOut? times)

/--
Multiplies by a power of ten, rounding the power and then the product.  A power
below the range is divided out in steps, each rounded in turn.
-/
def scaleByTen? (a : Magnitude) (power : Int) : Option Magnitude :=
  let size := power.natAbs
  if size ≤ greatestPowerOfTen then
    (powerOfTen? size).bind fun p => if 0 ≤ power then a.mul? p else a.div? p
  else if a.mantissa = 0 then some a
  else if 0 ≤ power then none
  else
    let times := (size - 1) / greatestPowerOfTen
    (divideOut? times a).bind fun rest =>
      (powerOfTen? (size - times * greatestPowerOfTen)).bind rest.div?

end Magnitude

structure Binary64 where
  negative : Bool
  magnitude : Magnitude
  deriving DecidableEq, Repr

end ArtifactAtlas.Decimal
