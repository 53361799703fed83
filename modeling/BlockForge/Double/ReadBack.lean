import BlockForge.Double.Lemmas
import BlockForge.Double.Shortest

/-!
The shortest decimal of a double reads back as that double.

Every decimal the search accepts was read back, and the exact decimal at the end
of the list is the double's own value, so rounding leaves it alone.
-/

namespace BlockForge.Double

theorem decimalLength_le_iff {n k : Nat} : decimalLength n ≤ k ↔ n < powerOfTen k := by
  unfold decimalLength powerOfTen
  by_cases hn : n = 0
  · rw [if_pos hn, hn]
    exact iff_of_true (Nat.zero_le k) (Nat.pow_pos (by decide))
  · rw [if_neg hn]
    by_cases hk : 0 < k
    · exact Nat.length_toDigits_le_iff (by omega) hk
    · have hk0 : k = 0 := by omega
      subst hk0
      have hlen := Nat.length_toDigits_pos (b := 10) (n := n)
      have hone : Nat.pow 10 0 = 1 := rfl
      rw [hone]
      omega

/-- A decimal with a negative power of ten is rounded as a quotient, as long as its
size is within the range of doubles. -/
theorem ofDecimal_neg {negative : Bool} {digits k : Nat} (h0 : digits ≠ 0) (hk : k ≠ 0)
    (hlong : decimalLength digits ≤ k + 310) (hshort : k ≤ decimalLength digits + 330) :
    ofDecimal ⟨negative, digits, -(k : Int)⟩ = ofQuotient negative digits (powerOfTen k) := by
  unfold ofDecimal Decimal.pointPosition
  dsimp only
  rw [if_neg h0, if_neg (by omega), if_neg (by omega), if_neg (by omega)]
  congr
  omega

/-- The exact decimal of a magnitude other than zero reads back. -/
theorem ofDecimal_exactDecimal (negative : Bool) (rank : Fin magnitudes) (h : rank.val ≠ 0) :
    ofDecimal (exactDecimal negative rank) = .finite negative rank := by
  have hunits := units_pos h
  have hlong : decimalLength (units rank * Nat.pow 5 1074) ≤ 1074 + 310 := by
    rw [decimalLength_le_iff]
    calc units rank * Nat.pow 5 1074
        ≤ (2 * binadeSize) <<< 2045 * Nat.pow 5 1074 :=
          Nat.mul_le_mul_right _ (Nat.le_of_lt (units_lt (exponent_le rank.isLt)))
      _ < powerOfTen (1074 + 310) := by decide +kernel
  have hlow : powerOfTen 744 ≤ units rank * Nat.pow 5 1074 := by
    have hone : powerOfTen 744 ≤ Nat.pow 5 1074 := by decide +kernel
    exact Nat.le_trans hone (Nat.le_mul_of_pos_left _ hunits)
  have hshort : 1074 ≤ decimalLength (units rank * Nat.pow 5 1074) + 330 := by
    have : 744 < decimalLength (units rank * Nat.pow 5 1074) := by
      rw [← Nat.not_le, decimalLength_le_iff, Nat.not_lt]
      exact hlow
    omega
  have hne : units rank * Nat.pow 5 1074 ≠ 0 := by
    intro hzero
    rw [hzero] at hlow
    exact absurd hlow (by decide +kernel)
  have hbase : powerOfTen 1074 = unitsPerOne * Nat.pow 5 1074 := by decide +kernel
  have hround : ofDecimal (exactDecimal negative rank) =
      ofQuotient negative (units rank * Nat.pow 5 1074) (powerOfTen 1074) :=
    @ofDecimal_neg negative _ 1074 hne (by decide) hlong hshort
  rw [hround, hbase, ofQuotient_mul_right _ _ _ _ (by decide +kernel), ofQuotient_units, ofRank,
    dif_pos rank.isLt]

/-- The shortest decimal reads back. -/
theorem ofDecimal_shortest (negative : Bool) (rank : Fin magnitudes) :
    ofDecimal (shortest negative rank) = .finite negative rank := by
  unfold shortest
  split
  next h =>
    have hpos : 0 < magnitudes := rank.pos
    have hrank : rank = ⟨0, hpos⟩ := Fin.ext h
    simp [ofDecimal, ofRank, hpos, hrank]
  next h =>
    cases hfind : (candidates negative rank).find? fun d =>
        ofDecimal d = .finite negative rank with
    | none => exact ofDecimal_exactDecimal negative rank h
    | some d => simpa using List.find?_some hfind

end BlockForge.Double
