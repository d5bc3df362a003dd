import ArtifactAtlas.Decimal.Binary64

/-!
# Shortest decimals

The decimal with the fewest digits that rounds to a given magnitude.  Every
number between two halfway points rounds to the magnitude, the halfway points
themselves when its mantissa is even.  For one digit, two digits and so on the
two neighbours of the magnitude on that decimal grid are tried; the first grid
with a hit gives the answer.
-/

namespace ArtifactAtlas.Decimal

/-- A number `coefficient * 10 ^ power`. -/
structure Scaled where
  coefficient : Nat
  power : Int
  deriving DecidableEq, Repr

/-- The number of decimal digits; zero has one. -/
def digitCount (n : Nat) : Nat :=
  (Nat.toDigits 10 n).length

/-- `num / den` with the power `10 ^ shift` moved into one of its sides. -/
def scaleByTen (num den : Nat) (shift : Int) : Nat × Nat :=
  if 0 ≤ shift then (num * Nat.pow 10 shift.toNat, den)
  else (num, den * Nat.pow 10 (-shift).toNat)

/-- The largest `k` with `10 ^ k ≤ num / den`, for a positive ratio. -/
def floorLogTen (num den : Nat) : Int :=
  let guess : Int := (digitCount num : Int) - digitCount den
  let (n, d) := scaleByTen num den (-guess)
  if d ≤ n then guess else guess - 1

def distance (a b : Nat) : Nat :=
  (a - b) + (b - a)

namespace Magnitude

/-- In quarters of the unit of the mantissa: where the numbers that round here begin. -/
def lowerQuarters (a : Magnitude) : Nat :=
  if a.mantissa = leastNormal ∧ leastExponent < a.exponent then
    4 * a.mantissa - 1
  else 4 * a.mantissa - 2

/-- In quarters of the unit of the mantissa: where the numbers that round here end. -/
def upperQuarters (a : Magnitude) : Nat :=
  4 * a.mantissa + 2

/-- The best point of the grid of multiples of `10 ^ power`, if one rounds to `a`. -/
def gridPoint? (a : Magnitude) (power : Int) : Option Nat :=
  let (unitNum, unitDen) := scaleByTwo 1 1 (a.exponent - 2)
  let (quarter, point) := scaleByTen unitNum unitDen (-power)
  let middle := 4 * a.mantissa * quarter
  let rounds (k : Nat) : Bool :=
    if a.mantissa % 2 = 0 then
      a.lowerQuarters * quarter ≤ k * point ∧ k * point ≤ a.upperQuarters * quarter
    else
      a.lowerQuarters * quarter < k * point ∧ k * point < a.upperQuarters * quarter
  let below := middle / point
  let above := below + 1
  let farBelow := distance middle (below * point)
  let farAbove := distance (above * point) middle
  let belowFirst := farBelow < farAbove ∨ (farBelow = farAbove ∧ below % 2 = 0)
  let candidates := if belowFirst then [below, above] else [above, below]
  candidates.find? rounds

/-- Seventeen digits always suffice. -/
def greatestDigitCount : Nat := 17

/-- The shortest decimal that rounds to a positive magnitude, nearest among those. -/
def shortest (a : Magnitude) : Scaled :=
  let (num, den) := scaleByTwo a.mantissa 1 a.exponent
  let leading := floorLogTen num den
  let attempt (further : Nat) : Option Scaled :=
    (a.gridPoint? (leading - further)).map fun k => ⟨k, leading - further⟩
  ((List.range greatestDigitCount).findSome? attempt).getD ⟨a.mantissa, 0⟩

end Magnitude

end ArtifactAtlas.Decimal
