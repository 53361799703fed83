import BlockForge.Text.Blank

/-!
Names folded into identifiers.

Folding lowercases a text and then writes an underscore for every character
outside `[a-z0-9_]`.  Of the characters beyond ASCII only two have a lowercase
form that matters here: the Kelvin sign becomes the letter `k`, and the dotted
capital I becomes a plain `i` followed by a combining dot.  Every other one
lowercases to a single character beyond ASCII and so becomes one underscore.
-/

namespace BlockForge.Text

/-- ASCII letters, ASCII digits and the underscore. -/
def isWord (c : Char) : Bool :=
  c.isAlphanum || c == '_'

/-- The lowercase identifier characters that stand for one character. -/
def foldChar (c : Char) : List Char :=
  if isWord c then [c.toLower]
  else if c == '\u212a' then ['k']
  else if c == '\u0130' then ['i', '_']
  else ['_']

/-- Fold every character of a text. -/
def fold (cs : List Char) : List Char :=
  cs.flatMap foldChar

/-- Folded text as an accessor's variable uses it. -/
def folded (name : String) : String :=
  String.ofList (fold name.toList)

/-- An identifier does not start with a digit: an underscore goes before one. -/
def guardDigit : List Char → List Char
  | [] => []
  | c :: cs => if c.isDigit then '_' :: c :: cs else c :: cs

/-- The block type a definition's name stands for: trimmed, folded, and with an
underscore before a leading digit.  Only a blank name gives the empty type. -/
def identifier (name : String) : String :=
  String.ofList (guardDigit (fold (trim name.toList)))

theorem foldChar_ne_nil (c : Char) : foldChar c ≠ [] := by
  unfold foldChar
  repeat' split
  all_goals simp

theorem isWord_toLower {c : Char} (h : isWord c = true) : isWord c.toLower = true := by
  unfold Char.toLower
  split
  next hupper =>
    have hlow : 65 ≤ c.val.toNat := UInt32.le_iff_toNat_le.1 hupper.1
    have hhigh : c.val.toNat ≤ 90 := UInt32.le_iff_toNat_le.1 hupper.2
    have hval : (c.val + ('a'.val - 'A'.val)).toNat = c.val.toNat + 32 := by
      have hoffset : ('a'.val - 'A'.val).toNat = 32 := rfl
      rw [UInt32.toNat_add, hoffset]
      exact Nat.mod_eq_of_lt (by omega)
    have hfrom : 'a'.val ≤ c.val + ('a'.val - 'A'.val) :=
      UInt32.le_iff_toNat_le.2 (hval ▸ Nat.add_le_add_right hlow 32)
    have hto : c.val + ('a'.val - 'A'.val) ≤ 'z'.val :=
      UInt32.le_iff_toNat_le.2 (hval ▸ Nat.add_le_add_right hhigh 32)
    have hlower (valid) : (Char.mk (c.val + ('a'.val - 'A'.val)) valid).isLower = true :=
      Bool.and_eq_true_iff.2 ⟨decide_eq_true hfrom, decide_eq_true hto⟩
    have hletter (valid) : (Char.mk (c.val + ('a'.val - 'A'.val)) valid).isAlpha = true :=
      Bool.or_eq_true_iff.2 (.inr (hlower valid))
    exact Bool.or_eq_true_iff.2 (.inl (Bool.or_eq_true_iff.2 (.inl (hletter _))))
  next => exact h

theorem isWord_of_mem_foldChar {c d : Char} (h : d ∈ foldChar c) : isWord d = true := by
  unfold foldChar at h
  split at h
  next hword =>
    obtain rfl := List.mem_singleton.1 h
    exact isWord_toLower hword
  next =>
    have hplain : d = 'k' ∨ d = 'i' ∨ d = '_' := by
      split at h
      next => exact .inl (List.mem_singleton.1 h)
      next => grind
    rcases hplain with rfl | rfl | rfl <;> decide

/-- Folding leaves nothing but identifier characters. -/
theorem isWord_of_mem_fold {cs : List Char} {d : Char} (h : d ∈ fold cs) : isWord d = true := by
  obtain ⟨c, _, hd⟩ := List.mem_flatMap.1 h
  exact isWord_of_mem_foldChar hd

theorem isWord_of_mem_identifier {name : String} {d : Char}
    (h : d ∈ (identifier name).toList) : isWord d = true := by
  rw [identifier, String.toList_ofList] at h
  have hmem : d = '_' ∨ d ∈ fold (trim name.toList) := by
    cases hfold : fold (trim name.toList) with
    | nil => simp [hfold, guardDigit] at h
    | cons c cs =>
        rw [hfold, guardDigit] at h
        split at h
        next => exact List.mem_cons.1 h
        next => exact .inr h
  rcases hmem with rfl | hmem
  · decide
  · exact isWord_of_mem_fold hmem

example : identifier "My Block!" = "my_block_" ∧ identifier "3d" = "_3d" ∧
    identifier "  spaced  " = "spaced" ∧ identifier "" = "" := by decide

example : identifier "na\u00efve" = "na_ve" ∧ identifier "\u212a9" = "k9" ∧
    identifier "\u0130x" = "i_x" := by decide

end BlockForge.Text
