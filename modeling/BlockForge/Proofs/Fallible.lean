import Mathlib.Data.List.Forall2

/-!
Computations that may fail: what success and failure of a sequence of steps say
about the steps.  Lists of related elements give the same results.
-/

namespace BlockForge

universe u

variable {ε : Type u} {α β : Type}

theorem except_bind_eq_ok_iff {x : Except ε α} {f : α → Except ε β} {b : β} :
    (x >>= f) = .ok b ↔ ∃ a, x = .ok a ∧ f a = .ok b := by
  cases x with
  | error e => simp [bind, Except.bind]
  | ok a => simp [bind, Except.bind]

theorem except_bind_eq_error_iff {x : Except ε α} {f : α → Except ε β} {e : ε} :
    (x >>= f) = .error e ↔ x = .error e ∨ ∃ a, x = .ok a ∧ f a = .error e := by
  cases x with
  | error e' => simp [bind, Except.bind]
  | ok a => simp [bind, Except.bind]

theorem exists_eq_ok_iff {x : Except ε α} : (∃ a, x = .ok a) ↔ x.isOk = true := by
  cases x with
  | error e => simp [Except.isOk, Except.toBool]
  | ok a => simp [Except.isOk, Except.toBool]

theorem exists_map_eq_ok_iff {x : Except ε α} {f : α → β} :
    (∃ b, x.map f = .ok b) ↔ ∃ a, x = .ok a := by
  cases x with
  | error e => simp [Except.map]
  | ok a => simp [Except.map]

theorem mapError_eq_ok_iff {ε' : Type u} {x : Except ε α} {f : ε → ε'} {a : α} :
    x.mapError f = .ok a ↔ x = .ok a := by
  cases x with
  | error e => exact iff_of_false nofun nofun
  | ok b =>
      exact ⟨fun h => congrArg Except.ok (Except.ok.inj h),
        fun h => congrArg Except.ok (Except.ok.inj h)⟩

/-- A sequence of steps succeeds with one result for each step. -/
theorem forall₂_of_mapM {f : α → Except ε β} {as : List α} {bs : List β}
    (h : as.mapM f = .ok bs) : List.Forall₂ (fun a b => f a = .ok b) as bs := by
  induction as generalizing bs with
  | nil =>
      obtain rfl : bs = [] := (Except.ok.inj h).symm
      exact .nil
  | cons a as ih =>
      rw [List.mapM_cons, except_bind_eq_ok_iff] at h
      obtain ⟨b, hb, h⟩ := h
      rw [except_bind_eq_ok_iff] at h
      obtain ⟨bs', hbs, h⟩ := h
      obtain rfl : b :: bs' = bs := Except.ok.inj h
      exact .cons hb (ih hbs)

/-- Every result of a sequence of steps is that of one of them. -/
theorem exists_of_mem_mapM {f : α → Except ε β} {as : List α} {bs : List β}
    (h : as.mapM f = .ok bs) {b : β} (hb : b ∈ bs) : ∃ a ∈ as, f a = .ok b := by
  have hall := forall₂_of_mapM h
  clear h
  induction hall with
  | nil => cases hb
  | @cons a b' as bs hstep _ ih =>
      rcases List.mem_cons.1 hb with rfl | hb
      · exact ⟨a, List.mem_cons_self, hstep⟩
      · obtain ⟨a', ha', hstep'⟩ := ih hb
        exact ⟨a', List.mem_cons_of_mem a ha', hstep'⟩

theorem exists_rel_of_mem {γ : Type u} {δ : Type*} {R : γ → δ → Prop} {as : List γ} {bs : List δ}
    (h : List.Forall₂ R as bs) {a : γ} (ha : a ∈ as) : ∃ b ∈ bs, R a b := by
  induction h with
  | nil => cases ha
  | @cons a' b as bs hrel _ ih =>
      rcases List.mem_cons.1 ha with rfl | ha
      · exact ⟨b, List.mem_cons_self, hrel⟩
      · obtain ⟨b', hb', hrel'⟩ := ih ha
        exact ⟨b', List.mem_cons_of_mem b hb', hrel'⟩

section Related

variable {γ : Type u} {δ : Type*} {R : γ → δ → Prop} {as : List γ} {bs : List δ}

theorem filterMap_eq_of_forall₂ {f : γ → Option α} {g : δ → Option α}
    (h : List.Forall₂ R as bs) (hfg : ∀ a b, R a b → f a = g b) :
    as.filterMap f = bs.filterMap g := by
  induction h with
  | nil => rfl
  | @cons a b as bs hrel _ ih => rw [List.filterMap_cons, List.filterMap_cons, hfg a b hrel, ih]

theorem find?_rel_of_forall₂ {p : γ → Bool} {q : δ → Bool} (h : List.Forall₂ R as bs)
    (hpq : ∀ a b, R a b → p a = q b) : Option.Rel R (as.find? p) (bs.find? q) := by
  induction h with
  | nil => exact .none
  | @cons a b as bs hrel _ ih =>
      rw [List.find?_cons, List.find?_cons, hpq a b hrel]
      cases q b with
      | true => exact .some hrel
      | false => exact ih

end Related

/-- In a sequence of steps that succeeds, each of them does. -/
theorem exists_of_mapM_eq_ok {f : α → Except ε β} {as : List α} {bs : List β}
    (h : as.mapM f = .ok bs) {a : α} (ha : a ∈ as) : ∃ b, f a = .ok b := by
  obtain ⟨b, _, hb⟩ := exists_rel_of_mem (forall₂_of_mapM h) ha
  exact ⟨b, hb⟩

/-- Steps that succeed with known results give these. -/
theorem mapM_eq_ok {f : α → Except ε β} {g : α → β} {as : List α}
    (h : ∀ a ∈ as, f a = .ok (g a)) : as.mapM f = .ok (as.map g) := by
  induction as with
  | nil => rfl
  | cons a as ih =>
      rw [List.mapM_cons, h a List.mem_cons_self, ih fun b hb => h b (List.mem_cons_of_mem a hb)]
      rfl

theorem mapM_eq_of_forall₂ {γ δ : Type} {R : γ → δ → Prop} {as : List γ} {bs : List δ}
    {f : γ → Except ε β} {g : δ → Except ε β} (h : List.Forall₂ R as bs)
    (hfg : ∀ a b, R a b → f a = g b) : as.mapM f = bs.mapM g := by
  induction h with
  | nil => rfl
  | @cons a b as bs hrel _ ih => rw [List.mapM_cons, List.mapM_cons, hfg a b hrel, ih]

/-- A sequence of steps fails with the first failure among them. -/
theorem mapM_eq_error_iff {f : α → Except ε β} {as : List α} {e : ε} :
    as.mapM f = .error e ↔ ∃ before a after, as = before ++ a :: after ∧
      (∀ b ∈ before, ∃ r, f b = .ok r) ∧ f a = .error e := by
  induction as with
  | nil =>
      constructor
      · intro h
        cases h
      · rintro ⟨before, a, after, hsplit, -, -⟩
        simp at hsplit
  | cons first rest ih =>
      rw [List.mapM_cons, except_bind_eq_error_iff]
      constructor
      · rintro (hfirst | ⟨b, hfirst, h⟩)
        · exact ⟨[], first, rest, rfl, by simp, hfirst⟩
        · rcases except_bind_eq_error_iff.1 h with hrest | ⟨bs, _, hpure⟩
          · obtain ⟨before, a, after, rfl, hbefore, ha⟩ := ih.1 hrest
            refine ⟨first :: before, a, after, rfl, ?_, ha⟩
            exact List.forall_mem_cons.2 ⟨⟨b, hfirst⟩, hbefore⟩
          · cases hpure
      · rintro ⟨before, a, after, hsplit, hbefore, ha⟩
        rcases before with _ | ⟨b, before⟩
        · obtain ⟨rfl, rfl⟩ := List.cons.inj hsplit
          exact .inl ha
        · obtain ⟨rfl, rfl⟩ := List.cons.inj hsplit
          obtain ⟨⟨r, hr⟩, hbefore⟩ := List.forall_mem_cons.1 hbefore
          have hrest := ih.2 ⟨before, a, after, rfl, hbefore, ha⟩
          exact .inr ⟨r, hr, except_bind_eq_error_iff.2 (.inl hrest)⟩

/-- A sequence of steps fails with the failure of one of them. -/
theorem exists_error_of_mapM {f : α → Except ε β} {as : List α} {e : ε}
    (h : as.mapM f = .error e) : ∃ a ∈ as, f a = .error e := by
  obtain ⟨before, a, after, rfl, -, ha⟩ := mapM_eq_error_iff.1 h
  exact ⟨a, List.mem_append_right before List.mem_cons_self, ha⟩

end BlockForge
