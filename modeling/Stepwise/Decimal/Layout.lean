import Stepwise.Decimal.Shortest

/-!
# Laying out decimal digits

A layout decides how the digits of a decimal number are written: in positional
notation throughout or only between two powers of ten, and whether a whole
number keeps a zero after the point.
-/

namespace Stepwise.Decimal

/-- How decimal numbers are written. -/
structure Layout where
  /-- The powers of ten of leading digits that are written without an exponent:
  from the first of the two up to, but not including, the second; all of them
  when no two are given. -/
  positional : Option (Int × Int)
  /-- Whether a whole number is written with a zero after the point. -/
  keepsPoint : Bool

namespace Layout

/-- Digits written positionally. -/
def writePositional (layout : Layout) (number : Digits) : String :=
  let digits := Nat.toDigits 10 number.digits
  if 0 ≤ number.exponent then
    let whole := String.ofList (digits ++ List.replicate number.exponent.toNat '0')
    if layout.keepsPoint then whole ++ ".0" else whole
  else
    let places := (-number.exponent).toNat
    let padded := List.replicate (places + 1 - digits.length) '0' ++ digits
    let wholeLength := padded.length - places
    String.ofList (padded.take wholeLength) ++ "." ++ String.ofList (padded.drop wholeLength)

/-- Digits written with one digit before the point and an exponent. -/
def writeScientific (number : Digits) : String :=
  let digits := Nat.toDigits 10 number.digits
  let exponent := number.exponent + (digits.length : Int) - 1
  let fraction := digits.drop 1
  let point := if fraction.isEmpty then "" else "." ++ String.ofList fraction
  String.ofList (digits.take 1) ++ point ++ "e" ++ toString exponent

/-- Digits written as the layout says. -/
def write (layout : Layout) (number : Digits) : String :=
  match layout.positional with
  | none => layout.writePositional number
  | some (lowest, limit) =>
      let leading := number.exponent + ((Nat.toDigits 10 number.digits).length : Int) - 1
      if decide (lowest ≤ leading) && decide (leading < limit) then
        layout.writePositional number
      else writeScientific number

end Layout

end Stepwise.Decimal
