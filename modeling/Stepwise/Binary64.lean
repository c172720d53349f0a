import Stepwise.Decimal.Layout

/-!
# Texts of binary64 reals

A real is written in three ways: as the sixteen hexadecimal digits of its bits,
which loses nothing but the identity of a NaN; plainly, with the fewest digits
that read back and never an exponent; and for inspection, where a whole number
keeps its point and very large or small numbers take an exponent.
-/

namespace Stepwise.Binary64

open Decimal

/-- The fraction that the magnitude bits of a finite, nonzero real stand for. -/
def fraction (magnitude : Nat) : BinaryFraction :=
  let exponent : Nat := magnitude / (1 <<< 52)
  let stored : Nat := magnitude % (1 <<< 52)
  if exponent = 0 then
    ⟨stored, -1074, 2, stored % 2 == 0⟩
  else
    let below := if stored = 0 ∧ 1 < exponent then 1 else 2
    ⟨stored + (1 <<< 52), (exponent : Int) - 1075, below, stored % 2 == 0⟩

/-- The text of a real in a layout: a sign, then its magnitude. -/
def write (layout : Layout) (number : Float) : String :=
  let bits := number.toBits.toNat
  let magnitude := bits % (1 <<< 63)
  let sign := if bits < 1 <<< 63 then "" else "-"
  let infinite := 2047 * (1 <<< 52)
  if infinite < magnitude then "NaN"
  else if magnitude = infinite then sign ++ "inf"
  else if magnitude = 0 then sign ++ layout.write ⟨0, 0⟩
  else sign ++ layout.write (fraction magnitude).shortest

/-- Plain numbers are positional and whole ones have no point. -/
def plain : Layout := ⟨none, false⟩

/-- Inspected numbers keep the point, and take an exponent below `10 ^ -4` and
from `10 ^ 16` on. -/
def inspected : Layout := ⟨some (-4, 16), true⟩

/-- The plain text of a real. -/
def text (number : Float) : String := write plain number

/-- The text of a real for inspection. -/
def inspect (number : Float) : String := write inspected number

/-- The sixteen hexadecimal digits of a real's bits; every NaN is `nan`. -/
def hex (number : Float) : String :=
  if number.isNaN then "nan"
  else
    let digits := Nat.toDigits 16 number.toBits.toNat
    String.ofList (List.replicate (16 - digits.length) '0' ++ digits)

/-- The value of a hexadecimal digit. -/
def hexDigit (digit : Char) : Nat :=
  if digit.isDigit then digit.toNat - '0'.toNat
  else if decide ('a' ≤ digit) && decide (digit ≤ 'f') then digit.toNat - 'a'.toNat + 10
  else if decide ('A' ≤ digit) && decide (digit ≤ 'F') then digit.toNat - 'A'.toNat + 10
  else 0

/-- The real with the bits that hexadecimal digits spell. -/
def ofHex (digits : String) : Float :=
  let bits := digits.toList.foldl (fun bits digit => bits * 16 + hexDigit digit) 0
  if digits == "nan" then Float.ofBits 0x7ff8000000000000
  else Float.ofBits bits.toUInt64

end Stepwise.Binary64
