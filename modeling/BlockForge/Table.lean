/-!
Tables keyed by text.

A table lists its entries in ascending order of their keys, each key once.
`get?_insert` says what entering a value does to a look-up, `ext` that nothing
but look-ups tells two tables apart, and `keys_ascending` in which order the
keys come.
-/

namespace BlockForge

universe u v

variable {α : Type u} {β : Type v}

/-- Entries in ascending order of their keys, each key at most once. -/
structure Table (α : Type u) where
  entries : List (String × α)
  ascending : entries.Pairwise fun a b => a.1 < b.1

namespace Table

instance [DecidableEq α] : DecidableEq (Table α) := fun s t =>
  if h : s.entries = t.entries then
    isTrue (by cases s; cases t; cases h; rfl)
  else
    isFalse fun e => h (e ▸ rfl)

/-- The table without entries. -/
def empty : Table α :=
  ⟨[], List.Pairwise.nil⟩

instance : EmptyCollection (Table α) := ⟨empty⟩

instance : Inhabited (Table α) := ⟨empty⟩

/-- The value an ascending list of entries holds for a key. -/
def find (k : String) : List (String × α) → Option α
  | [] => none
  | (k', v) :: rest => if k = k' then some v else find k rest

/-- Put an entry at its place, over an older one of the same key. -/
def place (k : String) (v : α) : List (String × α) → List (String × α)
  | [] => [(k, v)]
  | (k', v') :: rest =>
      if k < k' then (k, v) :: (k', v') :: rest
      else if k = k' then (k, v) :: rest
      else (k', v') :: place k v rest

theorem mem_place_imp {k : String} {v : α} {e : String × α} {es : List (String × α)}
    (h : e ∈ place k v es) : e = (k, v) ∨ e ∈ es := by
  induction es with
  | nil => simpa [place] using h
  | cons head rest ih =>
      simp only [place] at h
      split at h
      · simpa using h
      · split at h
        · simp only [List.mem_cons] at h ⊢
          exact h.imp id Or.inr
        · simp only [List.mem_cons] at h ⊢
          rcases h with h | h
          · exact Or.inr (Or.inl h)
          · exact (ih h).imp id Or.inr

theorem lt_of_not_lt_of_ne {a b : String} (h : ¬ a < b) (hne : a ≠ b) : b < a := by
  rcases String.le_total a b with hab | hab
  · by_cases hba : b ≤ a
    · exact absurd (String.le_antisymm hab hba) hne
    · exact absurd (String.not_le.1 hba) h
  · by_cases hba : a ≤ b
    · exact absurd (String.le_antisymm hba hab) hne
    · exact String.not_le.1 hba

theorem pairwise_place {k : String} {v : α} {es : List (String × α)}
    (h : es.Pairwise fun a b => a.1 < b.1) :
    (place k v es).Pairwise fun a b => a.1 < b.1 := by
  induction es with
  | nil => simp [place]
  | cons head rest ih =>
      obtain ⟨hhead, hrest⟩ := List.pairwise_cons.1 h
      simp only [place]
      split
      next hlt =>
        refine List.pairwise_cons.2 ⟨?_, h⟩
        intro e he
        rcases List.mem_cons.1 he with rfl | he
        · exact hlt
        · exact String.lt_trans hlt (hhead e he)
      next hlt =>
        split
        next heq =>
          refine List.pairwise_cons.2 ⟨?_, hrest⟩
          intro e he
          simpa [heq] using hhead e he
        next hne =>
          refine List.pairwise_cons.2 ⟨?_, ih hrest⟩
          intro e he
          rcases mem_place_imp he with rfl | he
          · exact lt_of_not_lt_of_ne hlt hne
          · exact hhead e he

theorem find_place (k k' : String) (v : α) (es : List (String × α)) :
    find k' (place k v es) = if k' = k then some v else find k' es := by
  induction es with
  | nil => simp [place, find]
  | cons head rest ih =>
      obtain ⟨hk, hv⟩ := head
      simp only [place]
      split
      · simp [find]
      · split
        next heq =>
          subst heq
          by_cases h : k' = k <;> simp [find, h]
        next hne =>
          simp only [find, ih]
          by_cases h : k' = hk
          · simp [h, Ne.symm hne]
          · simp [h]

/-- The value held for a key. -/
def get? (t : Table α) (k : String) : Option α :=
  find k t.entries

/-- Whether a key has a value. -/
def contains (t : Table α) (k : String) : Bool :=
  (t.get? k).isSome

/-- Give a key a value, in place of an older one. -/
def insert (t : Table α) (k : String) (v : α) : Table α :=
  ⟨place k v t.entries, pairwise_place t.ascending⟩

/-- The keys in ascending order. -/
def keys (t : Table α) : List String :=
  t.entries.map Prod.fst

/-- The number of keys. -/
def size (t : Table α) : Nat :=
  t.entries.length

/-- Enter pairs one after the other: of a repeated key the last value stays. -/
def ofList (pairs : List (String × α)) : Table α :=
  pairs.foldl (fun t e => t.insert e.1 e.2) empty

@[simp] theorem get?_empty (k : String) : (empty : Table α).get? k = none := rfl

theorem get?_insert (t : Table α) (k k' : String) (v : α) :
    (t.insert k v).get? k' = if k' = k then some v else t.get? k' :=
  find_place k k' v t.entries

@[simp] theorem get?_insert_self (t : Table α) (k : String) (v : α) :
    (t.insert k v).get? k = some v := by
  simp [get?_insert]

theorem mem_of_find {k : String} {v : α} {es : List (String × α)} (h : find k es = some v) :
    (k, v) ∈ es := by
  induction es with
  | nil => simp [find] at h
  | cons head rest ih =>
      simp only [find] at h
      split at h
      next heq => simp [heq, ← Option.some.inj h]
      next => exact List.mem_cons_of_mem _ (ih h)

theorem find_eq_none_of_lt {k : String} {es : List (String × α)} (h : ∀ e ∈ es, k < e.1) :
    find k es = none := by
  cases hfind : find k es with
  | none => rfl
  | some v => exact absurd (h _ (mem_of_find hfind)) (by simp)

theorem find_of_mem {k : String} {v : α} {es : List (String × α)}
    (hs : es.Pairwise fun a b => a.1 < b.1) (h : (k, v) ∈ es) : find k es = some v := by
  induction es with
  | nil => simp at h
  | cons head rest ih =>
      obtain ⟨hhead, hrest⟩ := List.pairwise_cons.1 hs
      rcases List.mem_cons.1 h with rfl | h
      · simp [find]
      · have hne : k ≠ head.1 := (String.ne_of_lt (hhead _ h)).symm
        simp [find, hne, ih hrest h]

/-- A look-up finds exactly the entries. -/
theorem get?_eq_some_iff {t : Table α} {k : String} {v : α} :
    t.get? k = some v ↔ (k, v) ∈ t.entries :=
  ⟨mem_of_find, find_of_mem t.ascending⟩

theorem entries_eq_of_find {es fs : List (String × α)}
    (hes : es.Pairwise fun a b => a.1 < b.1) (hfs : fs.Pairwise fun a b => a.1 < b.1)
    (h : ∀ k, find k es = find k fs) : es = fs := by
  induction es generalizing fs with
  | nil =>
      cases fs with
      | nil => rfl
      | cons f fs => simpa [find] using h f.1
  | cons e es ih =>
      cases fs with
      | nil => simpa [find] using h e.1
      | cons f fs =>
          obtain ⟨he, hes'⟩ := List.pairwise_cons.1 hes
          obtain ⟨hf, hfs'⟩ := List.pairwise_cons.1 hfs
          have hmem : e ∈ f :: fs := by
            apply mem_of_find (k := e.1) (v := e.2)
            rw [← h]; simp [find]
          have hmem' : f ∈ e :: es := by
            apply mem_of_find (k := f.1) (v := f.2)
            rw [h]; simp [find]
          have heq : e = f := by
            rcases List.mem_cons.1 hmem with heq | hin
            · exact heq
            · rcases List.mem_cons.1 hmem' with heq | hin'
              · exact heq.symm
              · exact absurd (hf _ hin) (String.lt_asymm (he _ hin'))
          subst heq
          congr 1
          apply ih hes' hfs'
          intro k
          by_cases hk : k = e.1
          · rw [hk, find_eq_none_of_lt he, find_eq_none_of_lt hf]
          · simpa [find, hk] using h k

/-- Tables with the same look-ups are equal. -/
theorem ext {s t : Table α} (h : ∀ k, s.get? k = t.get? k) : s = t := by
  cases s with
  | mk es hes =>
      cases t with
      | mk fs hfs =>
          have : es = fs := entries_eq_of_find hes hfs h
          subst this
          rfl

theorem mem_keys_iff {t : Table α} {k : String} : k ∈ t.keys ↔ t.contains k = true := by
  rw [contains, Option.isSome_iff_exists, keys, List.mem_map]
  constructor
  · rintro ⟨⟨k', v⟩, hmem, rfl⟩
    exact ⟨v, get?_eq_some_iff.2 hmem⟩
  · rintro ⟨v, h⟩
    exact ⟨(k, v), get?_eq_some_iff.1 h, rfl⟩

theorem keys_ascending (t : Table α) : t.keys.Pairwise (· < ·) :=
  List.pairwise_map.2 t.ascending

theorem get?_foldl_insert {pairs : List (String × α)} (h : pairs.Pairwise fun a b => a.1 < b.1)
    (t : Table α) (k : String) :
    (pairs.foldl (fun t e => t.insert e.1 e.2) t).get? k = (find k pairs).or (t.get? k) := by
  induction pairs generalizing t with
  | nil => rfl
  | cons e rest ih =>
      obtain ⟨he, hrest⟩ := List.pairwise_cons.1 h
      rw [List.foldl_cons, ih hrest, get?_insert]
      by_cases hk : k = e.1
      · rw [hk, find_eq_none_of_lt he, if_pos rfl, find, if_pos rfl]
        rfl
      · rw [if_neg hk, find, if_neg hk]

/-- Pairs in ascending order of their keys are entered as they are. -/
theorem entries_ofList {pairs : List (String × α)} (h : pairs.Pairwise fun a b => a.1 < b.1) :
    (ofList pairs).entries = pairs := by
  refine entries_eq_of_find (ofList pairs).ascending h ?_
  intro k
  have hfold := get?_foldl_insert h empty k
  rw [get?_empty, Option.or_none] at hfold
  exact hfold

/-- Apply a function to every value. -/
def map (f : α → β) (t : Table α) : Table β :=
  ⟨t.entries.map fun e => (e.1, f e.2), List.pairwise_map.2 t.ascending⟩

theorem get?_map (f : α → β) (t : Table α) (k : String) :
    (t.map f).get? k = (t.get? k).map f := by
  obtain ⟨es, hes⟩ := t
  simp only [get?, map]
  clear hes
  induction es with
  | nil => rfl
  | cons e es ih =>
      by_cases h : k = e.1 <;> simp [find, h, ih]

end Table

end BlockForge
