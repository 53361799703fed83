import BlockForge.Double.Decimal

/-!
The shortest decimal of a double, and its layout as text.

For one, two, … seventeen digits the two neighbours of a double on the decimal
grid with that many digits are tried, the nearer one first; the first that reads
back as the same double is taken.  The exact decimal of the double stands last
in the list, so some decimal is always found and whatever is found reads back.

A number is laid out positionally when its leading digit stands for 10^-5 up to
10^15, and with an exponent otherwise.
-/

namespace BlockForge.Double

/-- The power of ten of the leading digit of the quotient of two positive numbers. -/
def leadingPower (num den : Nat) : Int :=
  if den ≤ num then decimalLength (num / den) - 1 else -(decimalLength ((den - 1) / num))

/-- The quotient in steps of a power of ten, as a quotient again. -/
def inSteps (num den : Nat) (step : Int) : Nat × Nat :=
  if 0 ≤ step then (num, den * powerOfTen step.toNat) else (num * powerOfTen (-step).toNat, den)

/-- The neighbours of a quotient among the multiples of a power of ten, the
nearer one first and of two equally near ones the even one. -/
def neighbours (num den : Nat) (step : Int) : List Nat :=
  let (n, d) := inSteps num den step
  let low := n / d
  if nearestEven n d = low then [low, low + 1] else [low + 1, low]

/-- The decimals tried for the magnitude of some rank, the preferred ones first. -/
def candidates (negative : Bool) (rank : Nat) : List Decimal :=
  let power := leadingPower (units rank) unitsPerOne
  (List.range 17).flatMap fun (n : Nat) =>
    let step : Int := power - n
    (neighbours (units rank) unitsPerOne step).map fun digits => ⟨negative, digits, step⟩

/-- The decimal that is equal to a finite double. -/
def exactDecimal (negative : Bool) (rank : Nat) : Decimal :=
  ⟨negative, units rank * Nat.pow 5 1074, -1074⟩

/-- The fewest digits that read back as the double, nearest to it among those. -/
def shortest (negative : Bool) (rank : Fin magnitudes) : Decimal :=
  if rank.val = 0 then ⟨negative, 0, 0⟩
  else
    ((candidates negative rank).find? fun d => ofDecimal d = .finite negative rank).getD
      (exactDecimal negative rank)

/-- Move zeros at the end of the digits into the power of ten. -/
def dropZeros : Nat → Nat → Int → Nat × Int
  | 0, digits, exponent => (digits, exponent)
  | fuel + 1, digits, exponent =>
      if digits % 10 = 0 then dropZeros fuel (digits / 10) (exponent + 1) else (digits, exponent)

/-- A decimal without zeros at the end of its digits. -/
def normalized (d : Decimal) : Decimal :=
  if d.digits = 0 then ⟨d.negative, 0, 0⟩
  else
    let (digits, exponent) := dropZeros (decimalLength d.digits) d.digits d.exponent
    ⟨d.negative, digits, exponent⟩

/-- The digits of a power of ten with its sign; a positive one has no sign. -/
def exponentText (power : Int) : List Char :=
  if power < 0 then '-' :: Nat.toDigits 10 power.natAbs else Nat.toDigits 10 power.natAbs

/-- Digits times a power of ten, laid out with a point or an exponent. -/
def layout (digits : List Char) (exponent : Int) : List Char :=
  let point : Int := digits.length + exponent
  if 0 ≤ exponent ∧ point ≤ 16 then
    digits ++ List.replicate exponent.toNat '0' ++ ['.', '0']
  else if 0 < point ∧ point ≤ 16 then
    digits.take point.toNat ++ '.' :: digits.drop point.toNat
  else if -5 < point ∧ point ≤ 0 then
    '0' :: '.' :: List.replicate (-point).toNat '0' ++ digits
  else
    match digits with
    | [d] => d :: 'e' :: exponentText (point - 1)
    | d :: rest => d :: '.' :: rest ++ 'e' :: exponentText (point - 1)
    | [] => []

/-- A sign and a decimal as text. -/
def decimalText (d : Decimal) : List Char :=
  let n := normalized d
  let body := if n.digits = 0 then ['0', '.', '0'] else layout (Nat.toDigits 10 n.digits) n.exponent
  if n.negative then '-' :: body else body

/-- A finite double as text; a double that is not finite has none. -/
def text? : Double → Option (List Char)
  | .finite negative rank => some (decimalText (shortest negative rank))
  | _ => none

example : (text? (ofDecimal ⟨false, 1, 23⟩)).map String.ofList = some "1e23" ∧
    (text? (ofDecimal ⟨true, 0, 0⟩)).map String.ofList = some "-0.0" := by decide +kernel

example : (text? (ofDecimal ⟨false, 1, -5⟩)).map String.ofList = some "0.00001" ∧
    (text? (ofDecimal ⟨false, 1, -6⟩)).map String.ofList = some "1e-6" := by decide +kernel

end BlockForge.Double
