import BlockForge.Word

/-!
Binary floating-point numbers of 64 bits.

A finite double is a sign and the rank of its magnitude among all finite
magnitudes in ascending order, so each double has one description and the rank
is also the lower part of its bit pattern.  Magnitudes are whole numbers of
units of 2^-1074.  `ofQuotient` rounds an exact quotient to the nearest double,
a tie to the one with the even mantissa.
-/

namespace BlockForge

/-- The number of magnitudes in a binade, which is 2^52. -/
def Double.binadeSize : Nat := 0x10000000000000

/-- The number of finite magnitudes: 2047 binades, the first one subnormal. -/
def Double.magnitudes : Nat := 2047 * Double.binadeSize

/-- A double.  All the patterns that are no number count as one. -/
inductive Double where
  | nan
  | infinite (negative : Bool)
  | finite (negative : Bool) (rank : Fin Double.magnitudes)
deriving DecidableEq

namespace Double

/-- The whole significand of the magnitude of some rank. -/
def mantissa (rank : Nat) : Nat :=
  if rank < binadeSize then rank else binadeSize + rank % binadeSize

/-- The power of two, counted from 2^-1074, that the significand is scaled by.
The subnormal magnitudes share the exponent of the first normal binade. -/
def exponent (rank : Nat) : Nat :=
  rank / binadeSize - 1

/-- The magnitude of some rank in units of 2^-1074. -/
def units (rank : Nat) : Nat :=
  mantissa rank <<< exponent rank

/-- One in units of 2^-1074. -/
def unitsPerOne : Nat :=
  1 <<< 1074

/-- The double of some sign and rank; past the last finite rank lies infinity. -/
def ofRank (negative : Bool) (rank : Nat) : Double :=
  if h : rank < magnitudes then .finite negative ⟨rank, h⟩ else .infinite negative

def zero : Double := ofRank false 0

/-- The whole number nearest to a quotient; of two equally near ones the even one. -/
def nearestEven (num den : Nat) : Nat :=
  let q := num / den
  let r := num % den
  if 2 * r < den then q
  else if den < 2 * r then q + 1
  else q + q % 2

/-- The exponent at which a magnitude of so many whole units keeps 53 bits. -/
def binade (wholeUnits : Nat) : Nat :=
  if wholeUnits < 2 * binadeSize then 0 else Nat.log2 wholeUnits - 52

/-- The double nearest to a signed quotient. -/
def ofQuotient (negative : Bool) (num den : Nat) : Double :=
  let scaled := num * unitsPerOne
  let e := binade (scaled / den)
  ofRank negative (e * binadeSize + nearestEven scaled (den <<< e))

/-- The double nearest to a whole number. -/
def ofNat (n : Nat) : Double :=
  ofQuotient false n 1

/-- The double nearest to a whole number with its sign. -/
def ofInt (i : Int) : Double :=
  ofQuotient (decide (i < 0)) i.natAbs 1

/-- One more digit after the digits read so far.  For a radix that is a power of
two the product is exact, so the sum is rounded once. -/
def appendDigit (radix : Nat) (x : Double) (digit : Nat) : Double :=
  match x with
  | .nan => .nan
  | .infinite negative => .infinite negative
  | .finite negative rank =>
      ofQuotient negative (units rank * radix + digit * unitsPerOne) unitsPerOne

/-- Neither infinite nor no number at all. -/
def isFinite : Double → Bool
  | .finite _ _ => true
  | _ => false

def isNan : Double → Bool
  | .nan => true
  | _ => false

/-- A zero of either sign. -/
def isZero : Double → Bool
  | .finite _ rank => rank.val == 0
  | _ => false

/-- The whole number a double is equal to, if it is equal to one. -/
def toInt? : Double → Option Int
  | .finite negative rank =>
      if units rank % unitsPerOne = 0 then
        let n : Int := (units rank / unitsPerOne : Nat)
        some (if negative then -n else n)
      else none
  | _ => none

/-- Numeric equality: the two zeros are equal, and what is no number is not even
equal to itself. -/
def sameNumber (x y : Double) : Bool :=
  match x, y with
  | .nan, _ => false
  | _, .nan => false
  | x, y => (x.isZero && y.isZero) || decide (x = y)

instance : BEq Double := ⟨sameNumber⟩

/-- The bit pattern, sign first; there is no one pattern for `nan`. -/
def bits? : Double → Option Nat
  | .nan => none
  | .infinite negative => some ((if negative then Word.signBit else 0) + magnitudes)
  | .finite negative rank => some ((if negative then Word.signBit else 0) + rank)

@[simp] theorem nan_beq (x : Double) : (Double.nan == x) = false := rfl

theorem beq_eq_sameNumber (x y : Double) : (x == y) = sameNumber x y := rfl

theorem beq_self_iff (x : Double) : (x == x) = true ↔ x ≠ .nan := by
  cases x <;> simp [beq_eq_sameNumber, sameNumber]

theorem nearestEven_mul_right (num den k : Nat) (hk : 0 < k) :
    nearestEven (num * k) (den * k) = nearestEven num den := by
  have h1 : num * k / (den * k) = num / den := Nat.mul_div_mul_right num den hk
  have h2 : num * k % (den * k) = num % den * k := Nat.mul_mod_mul_right k num den
  have h3 : 2 * (num % den * k) < den * k ↔ 2 * (num % den) < den := by
    rw [← Nat.mul_assoc]; exact Nat.mul_lt_mul_right hk
  have h4 : den * k < 2 * (num % den * k) ↔ den < 2 * (num % den) := by
    rw [← Nat.mul_assoc]; exact Nat.mul_lt_mul_right hk
  simp only [nearestEven, h1, h2, h3, h4]

theorem nearestEven_of_dvd {num den : Nat} (hd : 0 < den) (h : den ∣ num) :
    nearestEven num den = num / den := by
  have : num % den = 0 := Nat.mod_eq_zero_of_dvd h
  simp [nearestEven, this, hd]

example : (ofQuotient false 1 10).bits? = some 0x3FB999999999999A := by decide +kernel

example : (ofQuotient true 5 2).bits? = some 0xC004000000000000 := by decide +kernel

end Double

end BlockForge
