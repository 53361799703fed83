import BlockForge.Proofs.Walks

/-!
The members of a type group.

A group that does not say how many members it has is taken to have one more than the
largest number among its member slots, or none at all where that sum does not fit a word
(`lt_memberCount_iff`).  Members beyond those that stand for anything change nothing
(`flatten_mapM_range`).
-/

namespace BlockForge

/-- A text without a plus sign at its start. -/
def withoutPlus : List Char → List Char
  | '+' :: rest => rest
  | cs => cs

/-- The whole number that a text writes, however large. -/
def numberOf? (cs : List Char) : Option Nat :=
  if withoutPlus cs ≠ [] ∧ (withoutPlus cs).all Char.isDigit then
    some (digitsValue (withoutPlus cs))
  else none

/-- The number of a slot named `TYPE` and a number, however large. -/
def slotNumber? (slot : String) : Option Nat :=
  match slot.toList with
  | 'T' :: 'Y' :: 'P' :: 'E' :: digits => numberOf? digits
  | _ => none

theorem withoutPlus_eq_self {cs : List Char} (h : ∀ rest, cs ≠ '+' :: rest) :
    withoutPlus cs = cs := by
  unfold withoutPlus
  split
  next rest => exact absurd rfl (h rest)
  next => rfl

/-- A number counts unless it is too large. -/
theorem countOf?_eq (cs : List Char) :
    countOf? cs = (numberOf? cs).filter fun n => n ≤ Word.maxUnsigned := by
  have hfilter (digits : List Char) :
      (if digits ≠ [] ∧ digits.all Char.isDigit ∧ digitsValue digits ≤ Word.maxUnsigned then
        some (digitsValue digits) else none) =
      (if digits ≠ [] ∧ digits.all Char.isDigit then some (digitsValue digits) else none).filter
        fun n => n ≤ Word.maxUnsigned := by
    by_cases hdigits : digits ≠ [] ∧ digits.all Char.isDigit = true
    · rw [if_pos hdigits, Option.filter_some]
      by_cases hle : digitsValue digits ≤ Word.maxUnsigned
      · rw [if_pos ⟨hdigits.1, hdigits.2, hle⟩, if_pos (decide_eq_true hle)]
      · rw [if_neg fun h => hle h.2.2, if_neg fun h => hle (of_decide_eq_true h)]
    · rw [if_neg hdigits, if_neg fun h => hdigits ⟨h.1, h.2.1⟩, Option.filter_none]
  dsimp only [countOf?]
  rw [numberOf?]
  split
  next rest => exact hfilter rest
  next hplus =>
    rw [withoutPlus_eq_self hplus]
    exact hfilter cs

/-- A slot has a number unless it is too large. -/
theorem typeIndex?_eq (slot : String) :
    typeIndex? slot = (slotNumber? slot).filter fun n => n ≤ Word.maxUnsigned := by
  rw [typeIndex?, slotNumber?]
  generalize slot.toList = cs
  split
  next digits => exact countOf?_eq digits
  next => simp

theorem slotNumber?_of_typeIndex? {slot : String} {n : Nat} (h : typeIndex? slot = some n) :
    slotNumber? slot = some n := by
  rw [typeIndex?_eq, Option.filter_eq_some_iff] at h
  exact h.1

theorem numberOf?_toDigits (i : Nat) : numberOf? (Nat.toDigits 10 i) = some i := by
  have hdigits : (Nat.toDigits 10 i).all Char.isDigit = true :=
    List.all_eq_true.2 fun c hc => Nat.isDigit_of_mem_toDigits (by decide) (by decide) hc
  have hplain : withoutPlus (Nat.toDigits 10 i) = Nat.toDigits 10 i := by
    refine withoutPlus_eq_self fun rest heq => ?_
    rw [heq] at hdigits
    cases hdigits
  rw [numberOf?, hplain, digitsValue_toDigits, if_pos ⟨Nat.toDigits_ne_nil, hdigits⟩]

theorem countOf?_toDigits {i : Nat} (h : i ≤ Word.maxUnsigned) :
    countOf? (Nat.toDigits 10 i) = some i := by
  rw [countOf?_eq, numberOf?_toDigits, Option.filter_some, if_pos (decide_eq_true h)]

theorem le_of_countOf? {cs : List Char} {n : Nat} (h : countOf? cs = some n) :
    n ≤ Word.maxUnsigned := by
  unfold countOf? at h
  extract_lets digits at h
  split at h
  next hcount =>
    obtain rfl := Option.some.inj h
    exact hcount.2.2
  next => cases h

/-- A slot is named `TYPE` and a number of 64 bits: some digits, perhaps after a plus
sign. -/
def NumberedSlot (slot : String) (n : Nat) : Prop :=
  n ≤ Word.maxUnsigned ∧ ∃ sign digits, slot.toList = "TYPE".toList ++ (sign ++ digits) ∧
    (sign = [] ∨ sign = ['+']) ∧ digits ≠ [] ∧ (∀ c ∈ digits, c.isDigit = true) ∧
    digitsValue digits = n

theorem numberOf?_eq_some_iff {cs : List Char} {n : Nat} :
    numberOf? cs = some n ↔ ∃ sign digits, cs = sign ++ digits ∧ (sign = [] ∨ sign = ['+']) ∧
      digits ≠ [] ∧ (∀ c ∈ digits, c.isDigit = true) ∧ digitsValue digits = n := by
  constructor
  · intro h
    rw [numberOf?] at h
    split at h
    next hdigits =>
      have hsign : ∃ sign, cs = sign ++ withoutPlus cs ∧ (sign = [] ∨ sign = ['+']) := by
        unfold withoutPlus
        split
        next rest => exact ⟨['+'], rfl, .inr rfl⟩
        next => exact ⟨[], rfl, .inl rfl⟩
      obtain ⟨sign, hcs, hsign⟩ := hsign
      exact ⟨sign, _, hcs, hsign, hdigits.1, List.all_eq_true.1 hdigits.2, Option.some.inj h⟩
    next => cases h
  · rintro ⟨sign, digits, rfl, hsign, hnil, hdigits, rfl⟩
    have hplain : withoutPlus (sign ++ digits) = digits := by
      rcases hsign with rfl | rfl
      · refine withoutPlus_eq_self fun rest heq => ?_
        rw [List.nil_append] at heq
        exact absurd (hdigits '+' (heq ▸ List.mem_cons_self)) (by decide)
      · rfl
    rw [numberOf?, hplain, if_pos ⟨hnil, List.all_eq_true.2 hdigits⟩]

theorem slotNumber?_eq_some_iff {slot : String} {n : Nat} :
    slotNumber? slot = some n ↔
      ∃ cs, slot.toList = "TYPE".toList ++ cs ∧ numberOf? cs = some n := by
  rw [slotNumber?]
  constructor
  · intro h
    split at h
    next cs hcs => exact ⟨cs, hcs, h⟩
    next => cases h
  · rintro ⟨cs, hcs, hnumber⟩
    rw [hcs]
    exact hnumber

/-- The slots that are counted are the numbered ones. -/
theorem typeIndex?_eq_some_iff {slot : String} {n : Nat} :
    typeIndex? slot = some n ↔ NumberedSlot slot n := by
  rw [typeIndex?_eq, Option.filter_eq_some_iff, slotNumber?_eq_some_iff, decide_eq_true_iff,
    and_comm]
  refine and_congr_right fun _ => ?_
  constructor
  · rintro ⟨cs, hcs, hnumber⟩
    obtain ⟨sign, digits, rfl, hrest⟩ := numberOf?_eq_some_iff.1 hnumber
    exact ⟨sign, digits, hcs, hrest⟩
  · rintro ⟨sign, digits, hcs, hrest⟩
    exact ⟨_, hcs, numberOf?_eq_some_iff.2 ⟨sign, digits, rfl, hrest⟩⟩

theorem toList_memberSlot (i : Nat) :
    (memberSlot i).toList = 'T' :: 'Y' :: 'P' :: 'E' :: Nat.toDigits 10 i := by
  rw [memberSlot, String.toList_append]
  simp

/-- The number of a member slot is in its name. -/
theorem slotNumber?_memberSlot (i : Nat) : slotNumber? (memberSlot i) = some i := by
  rw [slotNumber?, toList_memberSlot]
  exact numberOf?_toDigits i

/-- The number of a member slot is read back from its name. -/
theorem typeIndex?_memberSlot {i : Nat} (h : i ≤ Word.maxUnsigned) :
    typeIndex? (memberSlot i) = some i := by
  rw [typeIndex?, toList_memberSlot]
  exact countOf?_toDigits h

theorem le_of_typeIndex? {slot : String} {j : Nat} (h : typeIndex? slot = some j) :
    j ≤ Word.maxUnsigned := by
  unfold typeIndex? at h
  split at h
  next => exact le_of_countOf? h
  next => cases h

/-- The number of members that slots of the given names infer. -/
def memberCount (slots : List String) : Nat :=
  (lastMember? slots).elim 0 Word.next

/-- A slot has the largest number of all, so that the number of members wraps around. -/
def Wraps (slots : List String) : Prop :=
  ∃ slot ∈ slots, typeIndex? slot = some Word.maxUnsigned

theorem lastMember?_eq_some_iff {slots : List String} {n : Nat} :
    lastMember? slots = some n ↔ (∃ slot ∈ slots, typeIndex? slot = some n) ∧
      ∀ slot ∈ slots, ∀ j, typeIndex? slot = some j → j ≤ n := by
  rw [lastMember?, List.max?_eq_some_iff, List.mem_filterMap]
  refine and_congr Iff.rfl ?_
  constructor
  · intro h slot hslot j hj
    exact h j (List.mem_filterMap.2 ⟨slot, hslot, hj⟩)
  · intro h j hj
    obtain ⟨slot, hslot, hj⟩ := List.mem_filterMap.1 hj
    exact h slot hslot j hj

theorem lastMember?_eq_none_iff {slots : List String} :
    lastMember? slots = none ↔ ∀ slot ∈ slots, typeIndex? slot = none := by
  rw [lastMember?, List.max?_eq_none_iff, List.filterMap_eq_nil_iff]

theorem le_lastMember? {slots more : List String} {m : Nat} (h : slots ⊆ more)
    (hm : lastMember? slots = some m) : ∃ n, lastMember? more = some n ∧ m ≤ n := by
  obtain ⟨⟨slot, hslot, hnumber⟩, -⟩ := lastMember?_eq_some_iff.1 hm
  cases hmore : lastMember? more with
  | none =>
      rw [lastMember?_eq_none_iff.1 hmore slot (h hslot)] at hnumber
      cases hnumber
  | some n => exact ⟨n, rfl, (lastMember?_eq_some_iff.1 hmore).2 slot (h hslot) m hnumber⟩

theorem wraps_iff {slots : List String} :
    Wraps slots ↔ lastMember? slots = some Word.maxUnsigned := by
  rw [lastMember?_eq_some_iff]
  exact ⟨fun h => ⟨h, fun slot _ j hj => le_of_typeIndex? hj⟩, And.left⟩

/-- Where a slot has the largest number of all, no member is counted. -/
theorem memberCount_of_wraps {slots : List String} (h : Wraps slots) : memberCount slots = 0 := by
  rw [memberCount, wraps_iff.1 h]
  rfl

theorem lt_memberCount_iff {slots : List String} {i : Nat} :
    i < memberCount slots ↔
      ¬ Wraps slots ∧ ∃ slot ∈ slots, ∃ j, typeIndex? slot = some j ∧ i ≤ j := by
  cases hlast : lastMember? slots with
  | none =>
      have hnone := lastMember?_eq_none_iff.1 hlast
      rw [memberCount, hlast]
      refine ⟨fun hlt => absurd hlt (Nat.not_lt_zero i), ?_⟩
      rintro ⟨-, slot, hslot, j, hj, -⟩
      rw [hnone slot hslot] at hj
      cases hj
  | some last =>
      obtain ⟨⟨slot, hslot, hnumber⟩, hmost⟩ := lastMember?_eq_some_iff.1 hlast
      have hle := le_of_typeIndex? hnumber
      rw [memberCount, hlast, wraps_iff, hlast]
      change i < Word.next last ↔ _
      rw [Word.next]
      constructor
      · intro hlt
        split at hlt
        next hfits =>
          exact ⟨fun h => Nat.ne_of_lt hfits (Option.some.inj h), slot, hslot, last, hnumber,
            Nat.le_of_lt_succ hlt⟩
        next => exact absurd hlt (Nat.not_lt_zero i)
      · rintro ⟨hne, other, hother, j, hj, hij⟩
        have hfits : last < Word.maxUnsigned := by
          refine Nat.lt_of_le_of_ne hle ?_
          rintro rfl
          exact hne rfl
        rw [if_pos hfits]
        exact Nat.lt_succ_of_le (Nat.le_trans hij (hmost other hother j hj))

theorem lt_memberCount_of_le {slots : List String} {i : Nat} (hfits : ¬ Wraps slots)
    (h : memberSlot i ∈ slots) (hle : i ≤ Word.maxUnsigned) : i < memberCount slots :=
  lt_memberCount_iff.2 ⟨hfits, _, h, i, typeIndex?_memberSlot hle, Nat.le_refl i⟩

/-- A member slot that is there is among those that are counted, unless its number is
beyond all that are. -/
theorem lt_memberCount_of_mem {slots more : List String} {i : Nat} (hfits : ¬ Wraps slots)
    (h : memberSlot i ∈ slots) (hmore : i < memberCount more) : i < memberCount slots := by
  obtain ⟨-, _, _, j, hindex, hle⟩ := lt_memberCount_iff.1 hmore
  exact lt_memberCount_of_le hfits h (Nat.le_trans hle (le_of_typeIndex? hindex))

theorem Wraps.mono {slots more : List String} (h : slots ⊆ more) (hwraps : Wraps slots) :
    Wraps more := by
  obtain ⟨slot, hslot, hindex⟩ := hwraps
  exact ⟨slot, h hslot, hindex⟩

theorem memberCount_mono {slots more : List String} (h : slots ⊆ more)
    (hfits : ¬ Wraps more) : memberCount slots ≤ memberCount more := by
  refine Nat.le_of_not_lt fun hlt => ?_
  obtain ⟨-, slot, hslot, hindex⟩ := lt_memberCount_iff.1 hlt
  exact Nat.lt_irrefl _ (lt_memberCount_iff.2 ⟨hfits, slot, h hslot, hindex⟩)

/-- Members that stand for nothing leave the names of a group as they are. -/
theorem flatten_mapM_range {f : Nat → Except GenerationError (List String)} {m n : Nat}
    (hle : m ≤ n) (h : ∀ i, m ≤ i → i < n → f i = .ok []) :
    ((List.range n).mapM f).map List.flatten = ((List.range m).mapM f).map List.flatten := by
  induction hle with
  | refl => rfl
  | @step n hle ih =>
      rw [← ih fun i hi hlt => h i hi (Nat.lt_succ_of_lt hlt), List.range_succ, List.mapM_append,
        List.mapM_cons, h n hle (Nat.lt_succ_self n)]
      cases (List.range n).mapM f with
      | error e => rfl
      | ok names =>
          change Except.ok (names ++ [[]]).flatten = Except.ok names.flatten
          rw [List.flatten_append, List.flatten_singleton, List.append_nil]

/-- Steps that give nothing can be left out. -/
theorem flatten_mapM_filter {f : Nat → Except GenerationError (List String)} {p : Nat → Bool}
    {is : List Nat} (h : ∀ i ∈ is, p i = false → f i = .ok []) :
    ((is.filter p).mapM f).map List.flatten = (is.mapM f).map List.flatten := by
  induction is with
  | nil => rfl
  | cons i rest ih =>
      obtain ⟨hfirst, hothers⟩ := List.forall_mem_cons.1 h
      have ih := ih hothers
      rw [List.mapM_cons, List.filter_cons]
      cases hp : p i with
      | true =>
          rw [if_pos rfl, List.mapM_cons]
          cases f i with
          | error e => rfl
          | ok names =>
              have hfront (found : Except GenerationError (List (List String))) :
                  (found >>= fun others => .ok (names :: others)).map List.flatten =
                    (found.map List.flatten).map fun others => names ++ others := by
                cases found <;> rfl
              exact (hfront _).trans ((congrArg (Except.map _) ih).trans (hfront _).symm)
      | false =>
          rw [if_neg Bool.false_ne_true, ih, hfirst hp]
          cases rest.mapM f <;> rfl

theorem Node.namesWith_of_group {node : Node} (h : node.kind = .typeGroup)
    (members : String → Except GenerationError (List String)) :
    node.namesWith members =
      (((List.range node.itemCount).mapM fun i => members (memberSlot i)).map List.flatten).map
        List.eraseDups := by
  rw [namesWith, h]
  cases (List.range node.itemCount).mapM fun i => members (memberSlot i) <;> rfl

theorem Node.namesWith_of_not_group {node : Node} (h : node.kind ≠ .typeGroup)
    (members : String → Except GenerationError (List String)) :
    node.namesWith members = node.typeNames := by
  rw [namesWith]
  split
  next hgroup => exact absurd hgroup h
  next => rfl

end BlockForge
