import BlockForge.Double.Decimal
import BlockForge.Text.Blank
import BlockForge.Word

/-!
Numbers typed into the fields of an editor block.

A field text is a number in one of four forms once the blanks around it are
gone: nothing at all is zero, `0x`, `0o` and `0b` start a literal in radix
sixteen, eight or two, `Infinity` may have a sign, and anything else is a decimal
with an optional sign, point and power of ten.  A text of no such form is no
number.

A hue is read differently: only its leading whole number counts.
-/

namespace BlockForge.FieldNumber

/-- The value of a digit in either case, if the radix has it. -/
def digitValue? (radix : Nat) (c : Char) : Option Nat :=
  let value? :=
    if c.isDigit then some (c.toNat - '0'.toNat)
    else if 'a' ≤ c ∧ c ≤ 'f' then some (c.toNat - 'a'.toNat + 10)
    else if 'A' ≤ c ∧ c ≤ 'F' then some (c.toNat - 'A'.toNat + 10)
    else none
  value?.filter (· < radix)

/-- The radix that a letter after a leading zero selects. -/
def radixOf? (c : Char) : Option Nat :=
  if c = 'x' ∨ c = 'X' then some 16
  else if c = 'o' ∨ c = 'O' then some 8
  else if c = 'b' ∨ c = 'B' then some 2
  else none

/-- A radix and the characters of the digits, for a text that starts with one. -/
def radixLiteral? : List Char → Option (Nat × List Char)
  | '0' :: c :: digits => (radixOf? c).map fun radix => (radix, digits)
  | _ => none

/-- The number that digits in some radix write, rounded digit by digit. -/
def radixValue (radix : Nat) (digits : List Char) : Double :=
  match digits, digits.mapM (digitValue? radix) with
  | [], _ => .nan
  | _, some values => values.foldl (Double.appendDigit radix) .zero
  | _, none => .nan

/-- The sign a number may have. -/
def signed : List Char → Bool × List Char
  | '-' :: cs => (true, cs)
  | '+' :: cs => (false, cs)
  | cs => (false, cs)

/-- The power of ten at the end of a decimal; no letter means none. -/
def power? : List Char → Option Int
  | [] => some 0
  | c :: cs =>
      let (negative, digits) := signed cs
      if (c = 'e' ∨ c = 'E') ∧ digits ≠ [] ∧ digits.all Char.isDigit then
        some (if negative then -(digitsValue digits : Int) else digitsValue digits)
      else none

/-- The digits after a point, if there is a point, and what follows. -/
def fraction : List Char → List Char × List Char
  | '.' :: cs => (cs.takeWhile Char.isDigit, cs.dropWhile Char.isDigit)
  | cs => ([], cs)

/-- A decimal: digits with an optional sign, point and power of ten, and at least
one digit before or after the point. -/
def decimal? (cs : List Char) : Option Decimal :=
  let (negative, cs) := signed cs
  let whole := cs.takeWhile Char.isDigit
  let (part, rest) := fraction (cs.dropWhile Char.isDigit)
  if whole = [] ∧ part = [] then none
  else (power? rest).map (.ofParts negative whole part)

/-- The signed word for infinity: whether it is negative. -/
def infinity? (cs : List Char) : Option Bool :=
  let (negative, word) := signed cs
  if word = "Infinity".toList then some negative else none

/-- The number a field text stands for. -/
def parse (text : String) : Double :=
  let cs := Text.trim text.toList
  if cs = [] then .zero
  else
    match radixLiteral? cs with
    | some (radix, digits) => radixValue radix digits
    | none =>
        match infinity? cs with
        | some negative => .infinite negative
        | none =>
            match decimal? cs with
            | some d => .ofDecimal d
            | none => .nan

/-- The leading whole number of a text after blanks and a sign, as long as a word
of 64 bits with a sign holds its digits. -/
def leadingInt? (text : String) : Option Int :=
  let (negative, cs) := signed (Text.trimStart text.toList)
  let digits := cs.takeWhile Char.isDigit
  if digits = [] then none
  else
    let n := digitsValue digits
    if n ≤ Word.maxSigned then some (if negative then -n else n) else none

example : leadingInt? " 42deg" = some 42 ∧ leadingInt? "-7" = some (-7) ∧
    leadingInt? "hue" = none ∧ leadingInt? "" = none := by decide +kernel

example : parse "0XfF" = .ofNat 255 ∧ parse "0x" = .nan ∧ parse "-0x10" = .nan ∧
    parse "" = .zero ∧ parse " 1e3 " = .ofNat 1000 := by decide +kernel

end BlockForge.FieldNumber
