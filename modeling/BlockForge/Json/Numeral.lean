import BlockForge.Json.Fault
import BlockForge.Word

/-!
Numerals: an optional minus sign, a whole part without needless zeros, an
optional fraction and an optional power of ten.

A numeral without fraction and power is a whole number as long as 64 bits hold
it, with or without a sign.  Every other numeral, and minus zero, is the nearest
double, which must be finite.
-/

namespace BlockForge.Json

/-- The digits a text starts with, and what follows them. -/
def spanDigits (cs : List Char) : List Char × List Char :=
  (cs.takeWhile Char.isDigit, cs.dropWhile Char.isDigit)

/-- The fault when no digit stands where one has to. -/
def missingDigit (cs : List Char) : Fault :=
  if cs.isEmpty then .endOfValue else .invalidNumber

/-- At least one digit, and what follows the digits. -/
def someDigits (cs : List Char) : Except Fault (List Char × List Char) :=
  match spanDigits cs with
  | ([], rest) => .error (missingDigit rest)
  | (digits, rest) => .ok (digits, rest)

/-- Digits of which the first is no zero, unless it is the only one. -/
def wholePart (cs : List Char) : Except Fault (List Char × List Char) := do
  let (digits, rest) ← someDigits cs
  match digits with
  | '0' :: _ :: _ => .error .invalidNumber
  | _ => .ok (digits, rest)

/-- A point with digits after it, or nothing. -/
def fractionPart (cs : List Char) : Except Fault (Option (List Char) × List Char) :=
  match cs with
  | '.' :: cs => do
      let (digits, rest) ← someDigits cs
      .ok (some digits, rest)
  | cs => .ok (none, cs)

/-- The sign a power of ten may have. -/
def powerSign : List Char → Bool × List Char
  | '-' :: cs => (true, cs)
  | '+' :: cs => (false, cs)
  | cs => (false, cs)

/-- A letter `e` with a power of ten after it, or nothing. -/
def powerPart (cs : List Char) : Except Fault (Option Int × List Char) :=
  match cs with
  | c :: cs =>
      if c = 'e' ∨ c = 'E' then do
        let (negative, cs) := powerSign cs
        let (digits, rest) ← someDigits cs
        let power : Int := digitsValue digits
        .ok (some (if negative then -power else power), rest)
      else .ok (none, c :: cs)
  | [] => .ok (none, [])

/-- The number a numeral stands for. -/
def numberOf (negative : Bool) (whole : List Char) (fraction : Option (List Char))
    (power : Option Int) : Except Fault Number :=
  let asDouble : Except Fault Number :=
    match Double.ofDecimal (.ofParts negative whole (fraction.getD []) (power.getD 0)) with
    | .finite s r => .ok (.real (.finite s r))
    | _ => .error .numberOutOfRange
  if fraction.isNone ∧ power.isNone then
    let n := digitsValue whole
    if negative then
      if 0 < n ∧ Word.minSigned ≤ -n then .ok (.integer (-n)) else asDouble
    else if n ≤ Word.maxUnsigned then .ok (.integer n)
    else asDouble
  else asDouble

/-- The sign a numeral may have. -/
def numeralSign : List Char → Bool × List Char
  | '-' :: cs => (true, cs)
  | cs => (false, cs)

/-- A numeral: the number it stands for, if that is in range, and what follows. -/
def numeral (cs : List Char) : Except Fault (Except Fault Number × List Char) := do
  let (negative, cs) := numeralSign cs
  let (whole, cs) ← wholePart cs
  let (fraction, cs) ← fractionPart cs
  let (power, rest) ← powerPart cs
  .ok (numberOf negative whole fraction power, rest)

end BlockForge.Json
