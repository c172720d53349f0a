/-!
# The shortest decimal that reads back

A binary fraction `mantissa * 2 ^ exponent` is the value of every real in an
interval around it: reading any decimal inside the interval gives the fraction
back.  This module finds the decimal with the fewest digits in that interval.
On the grid of decimals with a given number of digits only the two neighbours
of the value matter: if any point of the grid lies in the interval, so does one
of them.  The search therefore tests both neighbours on ever finer grids, in
exact arithmetic on naturals, and takes the nearer one when both read back; an
exact tie goes up.
-/

namespace Stepwise.Decimal

/-- A positive binary fraction, together with the reals that round to it:
those between `4 * mantissa - below` and `4 * mantissa + 2` quarter units, the
ends included when `closed`. -/
structure BinaryFraction where
  mantissa : Nat
  exponent : Int
  below : Nat
  closed : Bool

/-- A decimal number: `digits * 10 ^ exponent`. -/
structure Digits where
  digits : Nat
  exponent : Int
  deriving DecidableEq

namespace BinaryFraction

/-- `count` quarter units of the fraction, scaled so that it can be compared
with `scaledPoint`. -/
def scaledQuarters (fraction : BinaryFraction) (count : Nat) (grid : Int) : Nat :=
  count * Nat.pow 2 (fraction.exponent - 2).toNat * Nat.pow 10 (-grid).toNat

/-- A point of the grid `10 ^ grid`, scaled so that it can be compared with
`scaledQuarters`. -/
def scaledPoint (fraction : BinaryFraction) (point : Nat) (grid : Int) : Nat :=
  point * Nat.pow 10 grid.toNat * Nat.pow 2 (-(fraction.exponent - 2)).toNat

/-- Whether a point of a grid reads back as the fraction. -/
def readsBack (fraction : BinaryFraction) (point : Nat) (grid : Int) : Bool :=
  let scaled := fraction.scaledPoint point grid
  let low := fraction.scaledQuarters (4 * fraction.mantissa - fraction.below) grid
  let high := fraction.scaledQuarters (4 * fraction.mantissa + 2) grid
  if fraction.closed then
    decide (low ≤ scaled) && decide (scaled ≤ high)
  else
    decide (low < scaled) && decide (scaled < high)

/-- The greatest point of a grid that is not above the fraction. -/
def floorOn (fraction : BinaryFraction) (grid : Int) : Nat :=
  fraction.scaledQuarters (4 * fraction.mantissa) grid / fraction.scaledPoint 1 grid

/-- The point that stands for the fraction on a grid, if one of the two
neighbours reads back. -/
def pointOn (fraction : BinaryFraction) (grid : Int) : Option Nat :=
  let lower := fraction.floorOn grid
  let upper := lower + 1
  match fraction.readsBack lower grid, fraction.readsBack upper grid with
  | true, true =>
      let exact := fraction.scaledQuarters (4 * fraction.mantissa) grid
      let distanceDown := exact - fraction.scaledPoint lower grid
      let distanceUp := fraction.scaledPoint upper grid - exact
      some (if distanceDown < distanceUp then lower else upper)
  | true, false => some lower
  | false, true => some upper
  | false, false => none

/-- The number of decimal digits of a natural; at least one. -/
def digitCount (number : Nat) : Nat := (Nat.toDigits 10 number).length

/-- How many powers of ten bring a fraction below one up to at least one. -/
def leadingZeros (fraction : BinaryFraction) : Nat → Nat → Nat
  | 0, count => count
  | fuel + 1, count =>
      if Nat.pow 2 (-fraction.exponent).toNat ≤ fraction.mantissa * Nat.pow 10 count then count
      else leadingZeros fraction fuel (count + 1)

/-- The least power of ten above the fraction. -/
def magnitude (fraction : BinaryFraction) : Int :=
  let whole := fraction.mantissa * Nat.pow 2 fraction.exponent.toNat /
    Nat.pow 2 (-fraction.exponent).toNat
  if whole = 0 then 1 - (fraction.leadingZeros 400 0 : Int) else digitCount whole

/-- The first grid, from coarse to fine, on which a neighbour reads back. -/
def firstPoint (fraction : BinaryFraction) (magnitude : Int) : Nat → Nat → Digits
  | 0, count => ⟨fraction.floorOn (magnitude - count), magnitude - count⟩
  | fuel + 1, count =>
      match fraction.pointOn (magnitude - count) with
      | some point => ⟨point, magnitude - count⟩
      | none => firstPoint fraction magnitude fuel (count + 1)

end BinaryFraction

/-- Drop trailing zeros from the digits. -/
def Digits.trim (number : Digits) : Nat → Digits
  | 0 => number
  | fuel + 1 =>
      if number.digits ≠ 0 ∧ number.digits % 10 = 0 then
        Digits.trim ⟨number.digits / 10, number.exponent + 1⟩ fuel
      else number

/-- The decimal with the fewest digits that reads back as the fraction. -/
def BinaryFraction.shortest (fraction : BinaryFraction) : Digits :=
  (fraction.firstPoint fraction.magnitude 18 1).trim 20

end Stepwise.Decimal
