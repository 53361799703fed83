import BlockForge.Double

/-!
Rounding leaves a double as it is: the double nearest to a magnitude is the one
of that magnitude.
-/

namespace BlockForge.Double

theorem mantissa_lt (rank : Nat) : mantissa rank < 2 * binadeSize := by
  unfold mantissa binadeSize
  split
  · omega
  · have := Nat.mod_lt rank (y := 0x10000000000000) (by decide)
    omega

theorem unitsPerOne_pos : 0 < unitsPerOne := by
  have hpos (n : Nat) : 0 < 1 <<< n := by
    rw [Nat.one_shiftLeft]
    exact Nat.two_pow_pos n
  rw [unitsPerOne]
  exact hpos 1074

/-- A rank is its exponent in binades, and its significand beyond them. -/
theorem exponent_mantissa (rank : Nat) : exponent rank * binadeSize + mantissa rank = rank := by
  unfold exponent mantissa binadeSize
  split
  next h =>
    have : rank / 0x10000000000000 = 0 := Nat.div_eq_of_lt h
    omega
  next h =>
    have hpos : 1 ≤ rank / 0x10000000000000 := (Nat.one_le_div_iff (by decide)).2 (by omega)
    have := Nat.div_add_mod rank 0x10000000000000
    omega

/-- Above the first binade the significand has its full length. -/
theorem le_mantissa_of_exponent_pos {rank : Nat} (h : 0 < exponent rank) :
    binadeSize ≤ mantissa rank := by
  unfold mantissa
  split
  next hlt =>
    have : rank / binadeSize = 0 := Nat.div_eq_of_lt hlt
    unfold exponent at h
    omega
  next => omega

/-- The binade of a magnitude is the one its rank lies in. -/
theorem binade_units (rank : Nat) : binade (units rank) = exponent rank := by
  by_cases h0 : exponent rank = 0
  · have hunits : units rank = mantissa rank := by
      rw [units, h0, Nat.shiftLeft_zero]
    rw [binade, hunits, if_pos (mantissa_lt rank), h0]
  · have hle := le_mantissa_of_exponent_pos (Nat.pos_of_ne_zero h0)
    have hlt := mantissa_lt rank
    have hpos : 0 < 2 ^ exponent rank := Nat.two_pow_pos _
    have htwo : 2 ≤ 2 ^ exponent rank := by
      have := Nat.pow_le_pow_right (n := 2) (by omega) (Nat.pos_of_ne_zero h0)
      omega
    have hbig : ¬ units rank < 2 * binadeSize := by
      have := Nat.mul_le_mul hle htwo
      rw [units, Nat.shiftLeft_eq]
      omega
    have hne : units rank ≠ 0 := by
      unfold binadeSize at hbig
      omega
    have hlog : Nat.log2 (units rank) = 52 + exponent rank := by
      rw [Nat.log2_eq_iff hne, units, Nat.shiftLeft_eq]
      constructor
      · rw [Nat.pow_add]
        exact Nat.mul_le_mul_right _ hle
      · rw [show 52 + exponent rank + 1 = 53 + exponent rank by omega, Nat.pow_add]
        exact Nat.mul_lt_mul_of_pos_right hlt hpos
    rw [binade, if_neg hbig, hlog]
    omega

/-- A whole number over one, both scaled by a power of two, is rounded to itself. -/
theorem nearestEven_shiftLeft (n e : Nat) : nearestEven (n <<< e) (1 <<< e) = n := by
  have hpos : 0 < 2 ^ e := Nat.two_pow_pos _
  rw [Nat.one_shiftLeft, Nat.shiftLeft_eq, nearestEven_of_dvd hpos (Nat.dvd_mul_left _ _)]
  exact Nat.mul_div_cancel _ hpos

/-- The double nearest to the magnitude of some rank has that rank. -/
theorem ofQuotient_units (negative : Bool) (rank : Nat) :
    ofQuotient negative (units rank) unitsPerOne = ofRank negative rank := by
  have hdiv : units rank * unitsPerOne / unitsPerOne = units rank :=
    Nat.mul_div_cancel _ unitsPerOne_pos
  have hden : unitsPerOne <<< exponent rank = (1 <<< exponent rank) * unitsPerOne := by
    rw [Nat.shiftLeft_eq, Nat.one_shiftLeft, Nat.mul_comm]
  have hnear : nearestEven (units rank * unitsPerOne) (unitsPerOne <<< exponent rank) =
      mantissa rank := by
    rw [hden, nearestEven_mul_right _ _ _ unitsPerOne_pos, units, nearestEven_shiftLeft]
  simp only [ofQuotient, hdiv, binade_units, hnear, exponent_mantissa]

/-- Rounding depends on the quotient only, not on how it is written. -/
theorem ofQuotient_mul_right (negative : Bool) (num den k : Nat) (hk : 0 < k) :
    ofQuotient negative (num * k) (den * k) = ofQuotient negative num den := by
  have hscale : num * k * unitsPerOne = num * unitsPerOne * k := Nat.mul_right_comm _ _ _
  have hdiv : num * unitsPerOne * k / (den * k) = num * unitsPerOne / den :=
    Nat.mul_div_mul_right _ _ hk
  have hden (e : Nat) : (den * k) <<< e = den <<< e * k := by
    rw [Nat.shiftLeft_eq, Nat.shiftLeft_eq, Nat.mul_right_comm]
  simp only [ofQuotient, hscale, hdiv, hden, nearestEven_mul_right _ _ _ hk]

theorem exponent_le {rank : Nat} (h : rank < magnitudes) : exponent rank ≤ 2045 := by
  rw [magnitudes, Nat.mul_comm] at h
  have hdiv : rank / binadeSize < 2047 := Nat.div_lt_of_lt_mul h
  unfold exponent
  omega

/-- A bound on the exponent bounds the magnitude. -/
theorem units_lt {rank k : Nat} (h : exponent rank ≤ k) :
    units rank < (2 * binadeSize) <<< k := by
  rw [units, Nat.shiftLeft_eq, Nat.shiftLeft_eq]
  calc mantissa rank * 2 ^ exponent rank
      ≤ mantissa rank * 2 ^ k := Nat.mul_le_mul_left _ (Nat.pow_le_pow_right (by omega) h)
    _ < 2 * binadeSize * 2 ^ k := Nat.mul_lt_mul_of_pos_right (mantissa_lt rank) (Nat.two_pow_pos k)

theorem units_pos {rank : Nat} (h : rank ≠ 0) : 0 < units rank := by
  rw [units, Nat.shiftLeft_eq]
  refine Nat.mul_pos ?_ (Nat.two_pow_pos _)
  unfold mantissa
  split
  · omega
  · unfold binadeSize
    omega

end BlockForge.Double
