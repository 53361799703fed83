import BlockForge.Double.ReadBack

/-!
Rounding a decimal depends on its value alone: moving zeros between the digits and
the power of ten leaves the nearest double as it is.
-/

namespace BlockForge

open Double

theorem powerOfTen_succ (k : Nat) : powerOfTen (k + 1) = powerOfTen k * 10 :=
  rfl

theorem decimalLength_mul_ten {n : Nat} (h : n ≠ 0) :
    decimalLength (n * 10) = decimalLength n + 1 := by
  have hstep (k : Nat) : decimalLength (n * 10) ≤ k + 1 ↔ decimalLength n ≤ k := by
    rw [decimalLength_le_iff, decimalLength_le_iff, powerOfTen_succ]
    omega
  have hpos : ¬ decimalLength (n * 10) ≤ 0 := by
    have hone : powerOfTen 0 = 1 := rfl
    rw [decimalLength_le_iff, hone]
    omega
  apply Nat.le_antisymm
  · exact (hstep (decimalLength n)).2 (Nat.le_refl _)
  · obtain ⟨k, hk⟩ : ∃ k, decimalLength (n * 10) = k + 1 :=
      ⟨decimalLength (n * 10) - 1, by omega⟩
    have hle := (hstep k).1 (Nat.le_of_eq hk)
    omega

theorem ofDecimal_zero (negative : Bool) (exponent : Int) :
    ofDecimal ⟨negative, 0, exponent⟩ = ofRank negative 0 :=
  if_pos rfl

/-- A zero more at the end of the digits makes up for a smaller power of ten. -/
theorem ofDecimal_mul_ten (negative : Bool) (digits : Nat) (exponent : Int) :
    ofDecimal ⟨negative, digits * 10, exponent - 1⟩ =
      ofDecimal ⟨negative, digits, exponent⟩ := by
  by_cases hzero : digits = 0
  · rw [hzero, Nat.zero_mul, ofDecimal_zero, ofDecimal_zero]
  have hten : digits * 10 ≠ 0 := by omega
  have hpoint : Decimal.pointPosition ⟨negative, digits * 10, exponent - 1⟩ =
      Decimal.pointPosition ⟨negative, digits, exponent⟩ := by
    simp only [Decimal.pointPosition, decimalLength_mul_ten hzero]
    omega
  have hround : (if 0 ≤ exponent - 1 then
        ofQuotient negative (digits * 10 * powerOfTen (exponent - 1).toNat) 1
      else ofQuotient negative (digits * 10) (powerOfTen (-(exponent - 1)).toNat)) =
      if 0 ≤ exponent then ofQuotient negative (digits * powerOfTen exponent.toNat) 1
      else ofQuotient negative digits (powerOfTen (-exponent).toNat) := by
    by_cases hpos : 1 ≤ exponent
    · obtain ⟨k, hk⟩ : ∃ k : Nat, exponent = k + 1 := ⟨(exponent - 1).toNat, by omega⟩
      have hle : 0 ≤ exponent - 1 := by omega
      have hprev : (exponent - 1).toNat = k := by omega
      have hnext : exponent.toNat = k + 1 := by omega
      rw [if_pos hle, if_pos (by omega), hprev, hnext, powerOfTen_succ, Nat.mul_assoc,
        Nat.mul_comm 10]
    · rw [if_neg (by omega)]
      obtain ⟨k, hk⟩ : ∃ k : Nat, exponent = -(k : Int) := ⟨(-exponent).toNat, by omega⟩
      have hprev : (-(exponent - 1)).toNat = k + 1 := by omega
      rw [hprev, powerOfTen_succ, ofQuotient_mul_right _ _ _ _ (by decide)]
      by_cases hk0 : k = 0
      · subst hk0
        rw [if_pos (by omega), show exponent.toNat = 0 by omega]
        have hone : powerOfTen 0 = 1 := rfl
        rw [hone, Nat.mul_one]
      · rw [if_neg (by omega), show (-exponent).toNat = k by omega]
  simp only [ofDecimal, hpoint, hround, if_neg hzero, if_neg hten]

theorem ofDecimal_mul_powerOfTen (negative : Bool) (digits k : Nat) (exponent : Int) :
    ofDecimal ⟨negative, digits * powerOfTen k, exponent - k⟩ =
      ofDecimal ⟨negative, digits, exponent⟩ := by
  induction k generalizing exponent with
  | zero =>
      have hone : powerOfTen 0 = 1 := rfl
      rw [hone, Nat.mul_one, Int.natCast_zero, Int.sub_zero]
  | succ k ih =>
      have hshift : exponent - ((k + 1 : Nat) : Int) = exponent - k - 1 := by omega
      rw [powerOfTen_succ, ← Nat.mul_assoc, hshift, ofDecimal_mul_ten, ih]

/-- Dropping zeros keeps the digits from vanishing and the double as it is. -/
theorem dropZeros_spec (negative : Bool) (fuel digits : Nat) (exponent : Int)
    (h : digits ≠ 0) :
    (dropZeros fuel digits exponent).1 ≠ 0 ∧
      ofDecimal ⟨negative, (dropZeros fuel digits exponent).1,
        (dropZeros fuel digits exponent).2⟩ = ofDecimal ⟨negative, digits, exponent⟩ := by
  induction fuel generalizing digits exponent with
  | zero => exact ⟨h, rfl⟩
  | succ fuel ih =>
      rw [dropZeros]
      split
      next hmod =>
        have hdiv : digits = digits / 10 * 10 := by omega
        obtain ⟨hne, hround⟩ := ih (digits / 10) (exponent + 1) (by omega)
        refine ⟨hne, hround.trans ?_⟩
        have hten := ofDecimal_mul_ten negative (digits / 10) (exponent + 1)
        rw [← hdiv, Int.add_sub_cancel] at hten
        exact hten.symm
      next => exact ⟨h, rfl⟩

theorem negative_normalized (d : Decimal) : (normalized d).negative = d.negative := by
  unfold normalized
  split <;> rfl

/-- A decimal and its normal form are rounded alike. -/
theorem ofDecimal_normalized (d : Decimal) : ofDecimal (normalized d) = ofDecimal d := by
  obtain ⟨negative, digits, exponent⟩ := d
  unfold normalized
  split
  next h =>
    dsimp only at h
    rw [h, ofDecimal_zero, ofDecimal_zero]
  next h => exact (dropZeros_spec negative _ digits exponent h).2

end BlockForge
