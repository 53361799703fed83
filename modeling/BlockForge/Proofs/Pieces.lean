import BlockForge.Proofs.References

/-!
Messages cut into pieces.

`Message.Cut` cuts a message without a scanner: two percent signs, a percent sign with all
the digits after it, and single characters.  Every message can be cut, and the scanner's
tokens are those of the pieces (`Message.Cut.tokens_eq`).
-/

namespace BlockForge.Message

/-- A piece of a message: a character, two percent signs, a percent sign that stands for
itself, or a percent sign with the digits after it. -/
inductive Piece where
  | plain (c : Char)
  | pair
  | percent
  | reference (digits : List Char)

/-- The text that a piece stands for. -/
def Piece.shown : Piece → List Char
  | .plain c => [c]
  | .pair => ['%']
  | .percent => ['%']
  | .reference _ => []

/-- The number that a piece refers to. -/
def Piece.number? : Piece → Option Nat
  | .reference digits => some (Nat.ofDigitChars 10 digits 0)
  | _ => none

/-- The pieces of a message from left to right.  Digits are taken as far as they go, and
a percent sign stands for itself where neither a percent sign nor a digit follows. -/
inductive Cut : List Char → List Piece → Prop where
  | nil : Cut [] []
  | plain {c : Char} {rest : List Char} {pieces : List Piece} (hc : c ≠ '%')
      (hrest : Cut rest pieces) : Cut (c :: rest) (.plain c :: pieces)
  | pair {rest : List Char} {pieces : List Piece} (hrest : Cut rest pieces) :
      Cut ('%' :: '%' :: rest) (.pair :: pieces)
  | percent {rest : List Char} {pieces : List Piece}
      (halone : ∀ c ∈ rest.head?, c ≠ '%' ∧ c.isDigit = false) (hrest : Cut rest pieces) :
      Cut ('%' :: rest) (.percent :: pieces)
  | reference {digits rest : List Char} {pieces : List Piece} (hne : digits ≠ [])
      (hdigits : ∀ c ∈ digits, c.isDigit = true)
      (hmaximal : ∀ c ∈ rest.head?, c.isDigit = false) (hrest : Cut rest pieces) :
      Cut ('%' :: (digits ++ rest)) (.reference digits :: pieces)

/-- The runs of text and the numbers of a message in order, after some text that was read
before them. -/
def itemsFrom : List Char → List Piece → List (Item Nat)
  | run, [] => [.text (String.ofList run)]
  | run, piece :: rest =>
      match piece.number? with
      | some n => .text (String.ofList run) :: .arg n :: itemsFrom [] rest
      | none => itemsFrom (run ++ piece.shown) rest

/-- A percent sign can be cut off, together with what belongs to it, when what stands
behind can be cut. -/
theorem exists_cut_percent {rest : List Char}
    (h : ∀ tail, tail.length ≤ rest.length → ∃ pieces, Cut tail pieces) :
    ∃ pieces, Cut ('%' :: rest) pieces := by
  cases rest with
  | nil => exact ⟨[.percent], .percent nofun .nil⟩
  | cons c rest =>
      by_cases hpercent : c = '%'
      · subst hpercent
        obtain ⟨pieces, hrest⟩ := h rest (Nat.le_succ _)
        exact ⟨.pair :: pieces, .pair hrest⟩
      by_cases hdigit : c.isDigit = true
      · have hsplit := List.takeWhile_append_dropWhile (p := Char.isDigit) (l := c :: rest)
        obtain ⟨pieces, hrest⟩ := h ((c :: rest).dropWhile Char.isDigit)
          (List.dropWhile_suffix _).length_le
        have hdigits : ∀ d ∈ (c :: rest).takeWhile Char.isDigit, d.isDigit = true :=
          List.all_eq_true.1 List.all_takeWhile
        have hmaximal : ∀ d ∈ ((c :: rest).dropWhile Char.isDigit).head?, d.isDigit = false := by
          intro d hd
          have hnot := List.head?_dropWhile_not Char.isDigit (c :: rest)
          rw [Option.mem_def.1 hd] at hnot
          exact hnot
        rw [← hsplit]
        exact ⟨_, .reference (by simp [hdigit]) hdigits hmaximal hrest⟩
      · obtain ⟨pieces, hrest⟩ := h (c :: rest) (Nat.le_refl _)
        refine ⟨.percent :: pieces, .percent ?_ hrest⟩
        intro d hd
        obtain rfl := Option.some.inj hd
        exact ⟨hpercent, Bool.eq_false_iff.2 hdigit⟩

/-- Every message can be cut.  The induction is on the length, since a reference takes
several characters at once. -/
theorem exists_cut (cs : List Char) : ∃ pieces, Cut cs pieces := by
  induction hlength : cs.length using Nat.strongRecOn generalizing cs with
  | ind n ih =>
      subst hlength
      cases cs with
      | nil => exact ⟨[], .nil⟩
      | cons c rest =>
          have hshorter (tail : List Char) (htail : tail.length ≤ rest.length) :
              ∃ pieces, Cut tail pieces :=
            ih tail.length (Nat.lt_succ_of_le htail) tail rfl
          by_cases hc : c = '%'
          · subst hc
            exact exists_cut_percent hshorter
          · obtain ⟨pieces, hrest⟩ := hshorter rest (Nat.le_refl _)
            exact ⟨.plain c :: pieces, .plain hc hrest⟩

/-- The symbols that a piece is read as. -/
def Piece.symbols (piece : Piece) : List Symbol :=
  match piece.number? with
  | some n => [.reference n]
  | none => piece.shown.map .char

/-- A percent sign that stands for itself is read as such. -/
theorem symbolsFrom_percent {rest : List Char}
    (halone : ∀ c ∈ rest.head?, c ≠ '%' ∧ c.isDigit = false) :
    symbolsFrom .plain ('%' :: rest) = .char '%' :: symbolsFrom .plain rest := by
  cases rest with
  | nil => rfl
  | cons c rest =>
      obtain ⟨hc, hdigit⟩ := halone c rfl
      simp [symbolsFrom, hc, hdigit]

/-- Reading follows every cut. -/
theorem Cut.symbols_eq {cs : List Char} {pieces : List Piece} (h : Cut cs pieces) :
    symbols cs = pieces.flatMap Piece.symbols := by
  rw [symbols]
  induction h with
  | nil => rfl
  | @plain c rest pieces hc _ ih =>
      rw [symbolsFrom, if_neg hc, ih]
      rfl
  | @pair rest pieces _ ih =>
      rw [symbolsFrom, if_pos rfl, symbolsFrom, if_pos rfl, ih]
      rfl
  | @percent rest pieces halone _ ih =>
      rw [symbolsFrom_percent halone, ih]
      rfl
  | @reference digits rest pieces hne hdigits hmaximal _ ih =>
      rw [symbolsFrom_percent_digits rest hne hdigits hmaximal, ih]
      rfl

/-- The token of an item, unless it is an empty run of text. -/
def itemTokens : Item Nat → List Token
  | .text raw => Item.runTokens raw.toList
  | .arg n => [.reference n]

/-- The tokens of pieces are those of their items, where a run of text that was read
before joins the first one. -/
theorem join_pieces (run : List Char) (pieces : List Piece) :
    join (run.map .char ++ pieces.flatMap Piece.symbols) =
      (itemsFrom run pieces).flatMap itemTokens := by
  induction pieces generalizing run with
  | nil =>
      rw [List.flatMap_nil, List.append_nil, join_run, itemsFrom]
      simp [itemTokens]
  | cons piece pieces ih =>
      rw [List.flatMap_cons, Piece.symbols, itemsFrom]
      cases piece.number? with
      | some n =>
          have hrest := ih []
          rw [List.map_nil, List.nil_append] at hrest
          rw [List.singleton_append, join_run_reference, hrest]
          simp [itemTokens]
      | none =>
          rw [← List.append_assoc, ← List.map_append]
          exact ih (run ++ piece.shown)

theorem Cut.tokens_eq {message : String} {pieces : List Piece}
    (h : Cut message.toList pieces) :
    tokens message = (itemsFrom [] pieces).flatMap itemTokens := by
  rw [tokens, h.symbols_eq]
  exact join_pieces [] pieces

/-- The numbers of the items are those of the pieces. -/
theorem filterMap_arg?_itemsFrom (run : List Char) (pieces : List Piece) :
    (itemsFrom run pieces).filterMap Item.arg? = pieces.filterMap Piece.number? := by
  induction pieces generalizing run with
  | nil => rfl
  | cons piece pieces ih =>
      rw [itemsFrom]
      cases hnumber : piece.number? with
      | some n =>
          have hpieces : (piece :: pieces).filterMap Piece.number? =
              n :: pieces.filterMap Piece.number? := by
            rw [List.filterMap_cons, hnumber]
          rw [hpieces, ← ih []]
          rfl
      | none =>
          rw [List.filterMap_cons, hnumber]
          exact ih _

end BlockForge.Message
