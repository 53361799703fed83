import BlockForge.Proofs.References

/-!
Which tokens find their arguments.

Numbers cover the arguments when each argument is referred to once and nothing else is
(`Covers`).  The tokens of a message give slots exactly when their numbers cover the
arguments, and then every slot comes from its token alone (`slotsFrom_eq_ok_iff`).
-/

namespace BlockForge.Instance

open Message (Token references)

/-- The numbers that go once through everything from one to `n` that was not referred to
before. -/
structure Covers (n : Nat) (used numbers : List Nat) : Prop where
  nodup : numbers.Nodup
  fresh : ∀ k ∈ numbers, (1 ≤ k ∧ k ≤ n) ∧ k ∉ used
  all : ∀ k, 1 ≤ k → k ≤ n → k ∈ used ∨ k ∈ numbers

theorem covers_nil_iff {n : Nat} {used : List Nat} :
    Covers n used [] ↔ ∀ k, 1 ≤ k → k ≤ n → k ∈ used := by
  constructor
  · intro h k hpos hle
    simpa using h.all k hpos hle
  · intro h
    exact ⟨List.nodup_nil, nofun, fun k hpos hle => .inl (h k hpos hle)⟩

theorem covers_cons_iff {n k : Nat} {used numbers : List Nat} :
    Covers n used (k :: numbers) ↔
      ((1 ≤ k ∧ k ≤ n) ∧ k ∉ used) ∧ Covers n (k :: used) numbers := by
  constructor
  · intro h
    obtain ⟨hk, hnodup⟩ := List.nodup_cons.1 h.nodup
    refine ⟨h.fresh k List.mem_cons_self, hnodup, ?_, ?_⟩
    · intro j hj
      obtain ⟨hrange, hused⟩ := h.fresh j (List.mem_cons_of_mem k hj)
      refine ⟨hrange, List.not_mem_cons_of_ne_of_not_mem ?_ hused⟩
      rintro rfl
      exact hk hj
    · intro j hpos hle
      rcases h.all j hpos hle with hused | hnumbers
      · exact .inl (List.mem_cons_of_mem k hused)
      · rcases List.mem_cons.1 hnumbers with rfl | hnumbers
        · exact .inl List.mem_cons_self
        · exact .inr hnumbers
  · rintro ⟨hk, h⟩
    refine ⟨List.nodup_cons.2 ⟨?_, h.nodup⟩, ?_, ?_⟩
    · intro hmem
      exact (h.fresh k hmem).2 List.mem_cons_self
    · intro j hj
      rcases List.mem_cons.1 hj with rfl | hj
      · exact hk
      · obtain ⟨hrange, hused⟩ := h.fresh j hj
        exact ⟨hrange, fun hmem => hused (List.mem_cons_of_mem k hmem)⟩
    · intro j hpos hle
      rcases h.all j hpos hle with hused | hnumbers
      · rcases List.mem_cons.1 hused with rfl | hused
        · exact .inr List.mem_cons_self
        · exact .inl hused
      · exact .inr (List.mem_cons_of_mem k hnumbers)

/-- Numbers that go through everything are the numbers up to `n` in some order. -/
theorem covers_iff_perm {n : Nat} {numbers : List Nat} :
    Covers n [] numbers ↔ numbers.Perm (List.range' 1 n) := by
  constructor
  · intro h
    rw [List.perm_ext_iff_of_nodup h.nodup List.nodup_range']
    intro k
    rw [List.mem_range'_1]
    constructor
    · intro hk
      obtain ⟨⟨hpos, hle⟩, _⟩ := h.fresh k hk
      omega
    · intro hk
      exact (h.all k (by omega) (by omega)).resolve_left List.not_mem_nil
  · intro h
    refine ⟨h.nodup_iff.2 List.nodup_range', ?_, ?_⟩
    · intro k hk
      have hrange := List.mem_range'_1.1 (h.mem_iff.1 hk)
      exact ⟨by omega, List.not_mem_nil⟩
    · intro k hpos hle
      exact .inr (h.mem_iff.2 (List.mem_range'_1.2 (by omega)))

/-- What a token puts into a row. -/
def slot? (args : List Arg) : Token → Option Slot
  | .text run => if Text.trim run = [] then none else some .label
  | .reference n => (args[min n maxReference - 1]?).map .arg

/-- The search at the end finds no number exactly when none is missing. -/
theorem find?_missing_eq_none_iff (n : Nat) (used : List Nat) :
    (List.range n).find? (fun i => !used.contains (i + 1)) = none ↔
      ∀ k, 1 ≤ k → k ≤ n → k ∈ used := by
  rw [List.find?_eq_none]
  constructor
  · intro h k hpos hle
    have hmissing := h (k - 1) (List.mem_range.2 (by omega))
    rw [Nat.sub_add_cancel hpos] at hmissing
    simpa using hmissing
  · intro h i hi
    have hmem := h (i + 1) (by omega) (List.mem_range.1 hi)
    simpa using hmem

theorem filterMap_cons_eq_append {α β : Type} (f : α → Option β) (a : α) (as : List α) :
    (a :: as).filterMap f = (f a).toList ++ as.filterMap f := by
  rw [List.filterMap_cons]
  cases f a <;> rfl

/-- A run of text gives no more than its label. -/
theorem slotsFrom_text_eq_ok_iff {args : List Arg} {used : List Nat} {run : List Char}
    {tokens : List Token} {slots : List Slot} :
    slotsFrom args used (.text run :: tokens) = .ok slots ↔
      ∃ found, slotsFrom args used tokens = .ok found ∧
        (slot? args (.text run)).toList ++ found = slots := by
  rw [slotsFrom, except_bind_eq_ok_iff, slot?]
  by_cases hblank : Text.trim run = [] <;> simp [hblank]

/-- A reference goes through when it is in range and the first of its number. -/
theorem slotsFrom_reference_eq_ok_iff {args : List Arg} {used : List Nat} {n : Nat}
    {tokens : List Token} {slots : List Slot} :
    slotsFrom args used (.reference n :: tokens) = .ok slots ↔
      ((1 ≤ min n maxReference ∧ min n maxReference ≤ args.length) ∧ min n maxReference ∉ used) ∧
        ∃ found, slotsFrom args (min n maxReference :: used) tokens = .ok found ∧
          (slot? args (.reference n)).toList ++ found = slots := by
  rw [slotsFrom, slot?]
  generalize min n maxReference = k
  cases k with
  | zero => simp
  | succ i =>
      rw [Nat.add_sub_cancel]
      cases harg : args[i]? with
      | none =>
          have hlength : ¬ i + 1 ≤ args.length :=
            Nat.not_lt.2 (List.getElem?_eq_none_iff.1 harg)
          simp [hlength]
      | some arg =>
          have hlength : i < args.length := (List.getElem?_eq_some_iff.1 harg).1
          by_cases hused : i + 1 ∈ used
          · simp [hused]
          · simp [hused, except_bind_eq_ok_iff, Nat.succ_le_of_lt hlength]

/-- Tokens fill rows exactly when the numbers they refer to go through the arguments
that were not referred to before. -/
theorem slotsFrom_eq_ok_iff {args : List Arg} {used : List Nat} {tokens : List Token}
    {slots : List Slot} :
    slotsFrom args used tokens = .ok slots ↔
      Covers args.length used (references tokens) ∧ tokens.filterMap (slot? args) = slots := by
  induction tokens generalizing used slots with
  | nil =>
      have hnone := find?_missing_eq_none_iff args.length used
      rw [slotsFrom, references, List.filterMap_nil, List.filterMap_nil, covers_nil_iff, ← hnone]
      cases hfind : (List.range args.length).find? fun i => !used.contains (i + 1) with
      | none => simp
      | some i => simp
  | cons token tokens ih =>
      rw [filterMap_cons_eq_append]
      cases token with
      | text run =>
          rw [slotsFrom_text_eq_ok_iff]
          simp only [ih]
          constructor
          · rintro ⟨_, ⟨hcovers, rfl⟩, hslots⟩
            exact ⟨hcovers, hslots⟩
          · rintro ⟨hcovers, hslots⟩
            exact ⟨_, ⟨hcovers, rfl⟩, hslots⟩
      | reference n =>
          have hreferences : references (.reference n :: tokens) =
              min n maxReference :: references tokens := rfl
          rw [slotsFrom_reference_eq_ok_iff, hreferences, covers_cons_iff]
          simp only [ih]
          constructor
          · rintro ⟨hfirst, _, ⟨hcovers, rfl⟩, hslots⟩
            exact ⟨⟨hfirst, hcovers⟩, hslots⟩
          · rintro ⟨⟨hfirst, hcovers⟩, hslots⟩
            exact ⟨hfirst, _, ⟨hcovers, rfl⟩, hslots⟩

/-- Every reason why a message does not go with its arguments is a fault of the schema. -/
theorem exists_reason_of_slotsFrom {args : List Arg} {used : List Nat} {tokens : List Token}
    {e : GenerationError} (h : slotsFrom args used tokens = .error e) :
    ∃ reason, e = .invalidSchema reason := by
  induction tokens generalizing used with
  | nil =>
      rw [slotsFrom] at h
      split at h
      next => exact ⟨_, (Except.error.inj h).symm⟩
      next => cases h
  | cons token tokens ih =>
      cases token with
      | text run =>
          rw [slotsFrom, except_bind_eq_error_iff] at h
          rcases h with h | ⟨_, _, h⟩
          · exact ih h
          · cases h
      | reference n =>
          rw [slotsFrom] at h
          split at h
          next => exact ⟨_, (Except.error.inj h).symm⟩
          next => exact ⟨_, (Except.error.inj h).symm⟩
          next =>
            split at h
            next => exact ⟨_, (Except.error.inj h).symm⟩
            next =>
              rw [except_bind_eq_error_iff] at h
              rcases h with h | ⟨_, _, h⟩
              · exact ih h
              · cases h

end BlockForge.Instance
