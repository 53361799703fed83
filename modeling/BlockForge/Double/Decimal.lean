import BlockForge.Double

/-!
Decimal numbers: a sign, a whole number of digits and a power of ten.

`Double.ofDecimal` is the double nearest to a decimal.  A decimal far outside
the range of doubles is settled by its size alone, so that a huge power of ten
is never computed.
-/

namespace BlockForge

/-- The number `± digits · 10 ^ exponent`. -/
structure Decimal where
  negative : Bool
  digits : Nat
  exponent : Int
deriving DecidableEq

/-- The number of decimal digits of a whole number; zero has none. -/
def decimalLength (n : Nat) : Nat :=
  if n = 0 then 0 else (Nat.toDigits 10 n).length

/-- One past the power of ten of the leading digit. -/
def Decimal.pointPosition (d : Decimal) : Int :=
  decimalLength d.digits + d.exponent

/-- A power of ten. -/
def powerOfTen (k : Nat) : Nat :=
  Nat.pow 10 k

/-- The double nearest to a decimal.  What is at least 10^310 rounds to
infinity and what is below 10^-330 to zero. -/
def Double.ofDecimal (d : Decimal) : Double :=
  if d.digits = 0 then Double.ofRank d.negative 0
  else if 310 < d.pointPosition then .infinite d.negative
  else if d.pointPosition < -330 then Double.ofRank d.negative 0
  else if 0 ≤ d.exponent then
    Double.ofQuotient d.negative (d.digits * powerOfTen d.exponent.toNat) 1
  else
    Double.ofQuotient d.negative d.digits (powerOfTen (-d.exponent).toNat)

/-- The whole number that a list of decimal digits writes. -/
def digitsValue (cs : List Char) : Nat :=
  Nat.ofDigitChars 10 cs 0

theorem digitsValue_toDigits (n : Nat) : digitsValue (Nat.toDigits 10 n) = n :=
  Nat.ofDigitChars_toDigits (by omega) (by omega)

/-- The decimal written by digits before a point, digits after it, and a power
of ten. -/
def Decimal.ofParts (negative : Bool) (whole fraction : List Char) (exponent : Int) : Decimal :=
  ⟨negative, digitsValue (whole ++ fraction), exponent - fraction.length⟩

example : (Double.ofDecimal ⟨false, 1, -1⟩).bits? = some 0x3FB999999999999A := by
  decide +kernel

example : Double.ofDecimal ⟨true, 1, 400⟩ = .infinite true := by decide +kernel

example : (Double.ofDecimal ⟨false, 5, -324⟩).bits? = some 1 := by decide +kernel

end BlockForge
