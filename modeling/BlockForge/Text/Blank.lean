/-!
Blank characters, and texts with the blanks around them removed.

A character is blank when it has the Unicode property White_Space; there are
twenty-five of them.  `trim` leaves a text that neither starts nor ends with a
blank.
-/

namespace BlockForge.Text

/-- Characters with the property White_Space. -/
def isBlank (c : Char) : Bool :=
  let n := c.toNat
  (9 ≤ n && n ≤ 13) || n == 0x20 || n == 0x85 || n == 0xA0 || n == 0x1680 ||
    (0x2000 ≤ n && n ≤ 0x200A) || n == 0x2028 || n == 0x2029 || n == 0x202F ||
    n == 0x205F || n == 0x3000

/-- Control characters: the two blocks below U+0020 and from U+007F to U+009F. -/
def isControl (c : Char) : Bool :=
  let n := c.toNat
  n ≤ 0x1F || (0x7F ≤ n && n ≤ 0x9F)

/-- Drop the blanks a text starts with. -/
def trimStart (cs : List Char) : List Char :=
  cs.dropWhile isBlank

/-- Drop the blanks a text starts and ends with. -/
def trim (cs : List Char) : List Char :=
  (trimStart (trimStart cs).reverse).reverse

/-- `trim` on a string. -/
def trimmed (s : String) : String :=
  String.ofList (trim s.toList)

/-- A text of blanks only shows nothing. -/
def allBlank (s : String) : Bool :=
  s.toList.all isBlank

@[simp] theorem trimStart_nil : trimStart [] = [] := rfl

theorem trimStart_cons (c : Char) (cs : List Char) :
    trimStart (c :: cs) = if isBlank c then trimStart cs else c :: cs := by
  by_cases h : isBlank c <;> simp [trimStart, h]

theorem trimStart_eq_nil_iff {cs : List Char} :
    trimStart cs = [] ↔ ∀ c ∈ cs, isBlank c = true := by
  induction cs with
  | nil => simp
  | cons c cs ih =>
      by_cases hc : isBlank c <;> simp [trimStart_cons, hc, ih]

@[simp] theorem trim_nil : trim [] = [] := rfl

theorem trim_eq_nil_iff {cs : List Char} : trim cs = [] ↔ ∀ c ∈ cs, isBlank c = true := by
  rw [trim, List.reverse_eq_nil_iff, trimStart_eq_nil_iff]
  constructor
  · intro h
    rw [← trimStart_eq_nil_iff]
    induction cs with
    | nil => rfl
    | cons c cs ih =>
        rw [trimStart_cons]
        by_cases hc : isBlank c
        · simp only [hc, ↓reduceIte]
          exact ih (by simpa [trimStart_cons, hc] using h)
        · exact absurd (h c (by simp [trimStart_cons, hc])) hc
  · intro h c hc
    have hnil := trimStart_eq_nil_iff.2 h
    simp [hnil] at hc

theorem trimStart_eq_self_iff {cs : List Char} :
    trimStart cs = cs ↔ ∀ c ∈ cs.head?, isBlank c = false := by
  cases cs with
  | nil => simp
  | cons c cs =>
      rw [trimStart_cons, List.head?_cons]
      constructor
      · intro h d hd
        obtain rfl := Option.some.inj hd
        cases hblank : isBlank c with
        | false => rfl
        | true =>
            rw [if_pos hblank] at h
            have hsuffix : trimStart cs <:+ cs := List.dropWhile_suffix isBlank
            have hlength := hsuffix.length_le
            rw [h, List.length_cons] at hlength
            omega
      · intro h
        rw [if_neg (by simp [h c rfl])]

/-- Nothing is removed from a text that neither starts nor ends with a blank. -/
theorem trim_eq_self_iff {cs : List Char} :
    trim cs = cs ↔
      (∀ c ∈ cs.head?, isBlank c = false) ∧ ∀ c ∈ cs.getLast?, isBlank c = false := by
  have hreverse {ds : List Char} : (trimStart ds.reverse).reverse = ds ↔
      ∀ c ∈ ds.getLast?, isBlank c = false := by
    rw [← List.head?_reverse, ← trimStart_eq_self_iff, List.reverse_eq_iff]
  rw [trim]
  constructor
  · intro h
    have hsuffix : trimStart cs <:+ cs := List.dropWhile_suffix isBlank
    have hshorter : trim cs <+: trimStart cs := by
      rw [trim, ← List.reverse_suffix, List.reverse_reverse]
      exact List.dropWhile_suffix isBlank
    have hstart : trimStart cs = cs := by
      refine hsuffix.eq_of_length (Nat.le_antisymm hsuffix.length_le ?_)
      have hlength := hshorter.length_le
      rwa [trim, h] at hlength
    rw [hstart] at h
    exact ⟨trimStart_eq_self_iff.1 hstart, hreverse.1 h⟩
  · rintro ⟨hstart, hend⟩
    rw [trimStart_eq_self_iff.2 hstart]
    exact hreverse.2 hend

theorem allBlank_iff {s : String} : allBlank s = true ↔ trim s.toList = [] := by
  rw [allBlank, List.all_eq_true, trim_eq_nil_iff]

example : isBlank '\x85' = true ∧ isBlank '\u3000' = true ∧ isBlank '\ufeff' = false ∧
    isBlank '\u200b' = false := by decide

example : trim " a b\t".toList = "a b".toList := by decide

end BlockForge.Text
