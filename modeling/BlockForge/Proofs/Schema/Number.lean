import BlockForge.Schema.Reader
import BlockForge.Schema.Writer
import BlockForge.Proofs.Json.Indented

/-!
The numbers of a schema, written as JSON and read again.

A number comes back as it is, up to two losses: the two zeros are written alike, and
a number that is not finite is written as null.
-/

namespace BlockForge

open Json (Within)

namespace Double

/-- What a number is after it was written and read. -/
def settled (x : Double) : Double :=
  if x.isZero then .zero else if x.isFinite then x else .nan

/-- What a number that may be missing is after it was written and read. -/
def settled? (x : Option Double) : Option Double :=
  (x.filter isFinite).map settled

theorem ofQuotient_whole (negative : Bool) (rank : Fin magnitudes)
    (h : units rank % unitsPerOne = 0) :
    ofQuotient negative (units rank / unitsPerOne) 1 = .finite negative rank := by
  have hmul : units rank / unitsPerOne * unitsPerOne = units rank :=
    Nat.div_mul_cancel (Nat.dvd_of_mod_eq_zero h)
  rw [← ofQuotient_mul_right _ _ _ unitsPerOne unitsPerOne_pos, hmul, Nat.one_mul,
    ofQuotient_units, ofRank, dif_pos rank.isLt]

theorem sign_natAbs {negative : Bool} {n : Nat} {i : Int} (hn : 0 < n)
    (hi : (if negative = true then -(n : Int) else n) = i) :
    decide (i < 0) = negative ∧ i.natAbs = n := by
  cases negative with
  | false =>
      rw [if_neg (by decide)] at hi
      exact ⟨decide_eq_false (by omega), by omega⟩
  | true =>
      rw [if_pos rfl] at hi
      exact ⟨decide_eq_true (by omega), by omega⟩

theorem ofInt_zero : ofInt 0 = .zero := by
  decide +kernel

/-- The whole number of a double, read as a double, is the double itself. -/
theorem ofInt_toInt {x : Double} {i : Int} (h : x.toInt? = some i) : ofInt i = x.settled := by
  cases x with
  | nan => cases h
  | infinite negative => cases h
  | finite negative rank =>
      rw [toInt?] at h
      split at h
      next hwhole =>
        have hvalue := Option.some.inj h
        by_cases hrank : rank.val = 0
        · have hunits : units rank / unitsPerOne = 0 := by
            rw [hrank]
            decide +kernel
          have hi : i = 0 := by
            rw [← hvalue, hunits]
            cases negative <;> rfl
          have hzero : isZero (.finite negative rank) = true := by simp [isZero, hrank]
          rw [hi, ofInt_zero, settled, if_pos hzero]
        · have hzero : ¬ isZero (.finite negative rank) = true := by simp [isZero, hrank]
          have hpos : 0 < units rank / unitsPerOne :=
            Nat.div_pos (Nat.le_of_dvd (units_pos hrank) (Nat.dvd_of_mod_eq_zero hwhole))
              unitsPerOne_pos
          obtain ⟨hsign, hsize⟩ := sign_natAbs hpos hvalue
          rw [ofInt, hsign, hsize, ofQuotient_whole _ _ hwhole, settled, if_neg hzero]
          rfl
      next => cases h

theorem toInt_of_isZero {x : Double} (h : x.isZero = true) : x.toInt? = some 0 := by
  cases x with
  | nan => cases h
  | infinite negative => cases h
  | finite negative rank =>
      have hrank : rank.val = 0 := by simpa [isZero] using h
      rw [toInt?, hrank, if_pos (by decide +kernel)]
      have hunits : units 0 / unitsPerOne = 0 := by decide +kernel
      rw [hunits]
      cases negative <;> rfl

theorem settled_of_ne_zero {x : Double} (h : x.toInt? ≠ some 0) :
    x.settled = if x.isFinite then x else .nan :=
  if_neg fun hzero => h (toInt_of_isZero hzero)

/-- The three ways a number is written: whole, with a fraction or a power, and as
null when it is not finite. -/
theorem toJson_cases (x : Double) :
    (∃ i, x.toJson = .number (.integer i) ∧ i.natAbs ≤ maxExactInteger ∧
      x.isFinite = true ∧ ofInt i = x.settled) ∨
    (x.toJson = .number (.real x) ∧ x.isFinite = true ∧ x.settled = x) ∨
    (x.toJson = .null ∧ x.isFinite = false ∧ x.settled = .nan) := by
  unfold toJson
  by_cases hfinite : x.isFinite = true
  · rw [if_pos hfinite]
    cases hwhole : x.toInt? with
    | none =>
        refine .inr (.inl ⟨rfl, hfinite, ?_⟩)
        rw [settled_of_ne_zero (by rw [hwhole]; exact nofun), if_pos hfinite]
    | some i =>
        dsimp only
        by_cases hle : i.natAbs ≤ maxExactInteger
        · rw [if_pos hle]
          exact .inl ⟨i, rfl, hle, hfinite, ofInt_toInt hwhole⟩
        · rw [if_neg hle]
          refine .inr (.inl ⟨rfl, hfinite, ?_⟩)
          have hne : x.toInt? ≠ some 0 := by
            rw [hwhole]
            rintro heq
            rw [Option.some.inj heq] at hle
            exact hle (Nat.zero_le _)
          rw [settled_of_ne_zero hne, if_pos hfinite]
  · rw [if_neg hfinite]
    refine .inr (.inr ⟨rfl, Bool.eq_false_iff.2 hfinite, ?_⟩)
    cases x with
    | nan => rfl
    | infinite negative => rfl
    | finite negative rank => exact absurd rfl hfinite

theorem within_toJson (levels : Nat) (x : Double) : Within levels x.toJson := by
  rcases toJson_cases x with ⟨i, hjson, hle, _⟩ | ⟨hjson, hfinite, _⟩ | ⟨hjson, _⟩
  · rw [hjson]
    have hmax : maxExactInteger = 0x1fffffffffffff := rfl
    have hlow : Word.minSigned = -0x8000000000000000 := rfl
    have hhigh : Word.maxUnsigned = 0xffffffffffffffff := rfl
    exact .number ⟨by omega, by omega⟩
  · rw [hjson]
    exact .number hfinite
  · rw [hjson]
    exact .null

theorem doubleOrNan_toJson (x : Double) : x.toJson.doubleOrNan? = some x.settled := by
  rcases toJson_cases x with ⟨i, hjson, _, _, hvalue⟩ | ⟨hjson, _, hvalue⟩ | ⟨hjson, _, hvalue⟩
  · rw [hjson, ← hvalue]
    rfl
  · rw [hjson, hvalue]
    rfl
  · rw [hjson, hvalue]
    rfl

theorem optional_toJson (x : Option Double) :
    Json.optional? Json.double? (x.map toJson) = some (settled? x) := by
  cases x with
  | none => rfl
  | some x =>
      rcases toJson_cases x with ⟨i, hjson, _, hfinite, hvalue⟩ | ⟨hjson, hfinite, hvalue⟩ |
        ⟨hjson, hfinite, hvalue⟩
      · rw [Option.map_some, hjson, settled?, Option.filter_some_pos hfinite, Option.map_some,
          ← hvalue]
        rfl
      · rw [Option.map_some, hjson, settled?, Option.filter_some_pos hfinite, Option.map_some,
          hvalue]
        rfl
      · rw [Option.map_some, hjson, settled?, Option.filter_some_neg (by simp [hfinite])]
        rfl

end Double

end BlockForge
