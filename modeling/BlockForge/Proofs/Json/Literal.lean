import BlockForge.Json.Draft

/-!
Written text literals read back: `readQuoted_quote` holds for every text and
whatever stands after the closing quote.
-/

namespace BlockForge.Json

/-- The piece that one written character is cut into: controls without a letter of
their own become units. -/
def pieceOf (c : Char) : Piece :=
  if c.toNat < 0x20 ∧ c ≠ '\x08' ∧ c ≠ '\x0c' ∧ c ≠ '\n' ∧ c ≠ '\r' ∧ c ≠ '\t' then
    .unit c.toNat
  else .char c

theorem hexValue?_hexDigit {n : Nat} (h : n < 16) :
    hexValue? (hexDigit n) = some n := by
  have hall : ∀ n, n < 16 → hexValue? (hexDigit n) = some n := by decide
  exact hall n h

/-- The two hexadecimal digits of a control, after two zeros, give its number. -/
theorem hexUnit?_control {n : Nat} (h : n < 0x20) :
    hexUnit? '0' '0' (hexDigit (n / 16)) (hexDigit (n % 16)) = some n := by
  have hzero : hexValue? '0' = some 0 := by decide
  have hhigh := hexValue?_hexDigit (show n / 16 < 16 by omega)
  have hlow := hexValue?_hexDigit (show n % 16 < 16 by omega)
  simp only [hexUnit?, hzero, hhigh, hlow, Option.some.injEq]
  omega

/-- A backslash with a letter is one piece. -/
theorem pieces_letter {letter c : Char} (rest : List Char) (hu : letter ≠ 'u')
    (h : letterEscape? letter = some c) :
    pieces ('\\' :: letter :: rest) = (.char c :: (pieces rest).1, (pieces rest).2) := by
  rw [pieces.eq_def]
  simp [hu, h]

/-- A character that needs no escape is one piece. -/
theorem pieces_plain {c : Char} (rest : List Char) (hquote : c ≠ '"')
    (hslash : c ≠ '\\') (hlow : ¬ c.toNat < 0x20) :
    pieces (c :: rest) = (.char c :: (pieces rest).1, (pieces rest).2) := by
  rw [pieces.eq_def]
  simp [hquote, hslash, hlow]

theorem pieces_control {n : Nat} (rest : List Char) (h : n < 0x20) :
    pieces ('\\' :: 'u' :: '0' :: '0' :: hexDigit (n / 16) :: hexDigit (n % 16) :: rest) =
      (.unit n :: (pieces rest).1, (pieces rest).2) := by
  rw [pieces.eq_def]
  simp [hexUnit?_control h]

/-- A written character is cut off as one piece. -/
theorem pieces_escapeChar (c : Char) (rest : List Char) :
    pieces (escapeChar c ++ rest) = (pieceOf c :: (pieces rest).1, (pieces rest).2) := by
  unfold escapeChar
  split
  next h => subst h; exact pieces_letter rest (by decide) (by decide)
  next hquote =>
  split
  next h => subst h; exact pieces_letter rest (by decide) (by decide)
  next hslash =>
  split
  next h => subst h; exact pieces_letter rest (by decide) (by decide)
  next hback =>
  split
  next h => subst h; exact pieces_letter rest (by decide) (by decide)
  next hform =>
  split
  next h => subst h; exact pieces_letter rest (by decide) (by decide)
  next hline =>
  split
  next h => subst h; exact pieces_letter rest (by decide) (by decide)
  next hreturn =>
  split
  next h => subst h; exact pieces_letter rest (by decide) (by decide)
  next htab =>
  split
  next hlow =>
    have hpiece : pieceOf c = .unit c.toNat :=
      if_pos ⟨hlow, hback, hform, hline, hreturn, htab⟩
    rw [hpiece]
    exact pieces_control rest hlow
  next hhigh =>
    have hpiece : pieceOf c = .char c := if_neg fun h => hhigh h.1
    rw [hpiece]
    exact pieces_plain rest hquote hslash hhigh

theorem decode_char (stop : QuoteEnd) (c : Char) (rest : List Piece) :
    decode stop (.char c :: rest) = (decode stop rest).map (c :: ·) := by
  rw [decode.eq_def]

theorem decode_unit {n : Nat} (stop : QuoteEnd) (rest : List Piece) (h : n < 0xD800) :
    decode stop (.unit n :: rest) = (decode stop rest).map (Char.ofNat n :: ·) := by
  have hlow : isLowSurrogate n = false := by
    simp only [isLowSurrogate, Bool.and_eq_false_iff, decide_eq_false_iff_not]
    omega
  have hhigh : isHighSurrogate n = false := by
    simp only [isHighSurrogate, Bool.and_eq_false_iff, decide_eq_false_iff_not]
    omega
  rw [decode.eq_def]
  simp [hlow, hhigh]

/-- Decoding the piece of a character gives the character. -/
theorem decode_pieceOf (stop : QuoteEnd) (c : Char) (rest : List Piece) :
    decode stop (pieceOf c :: rest) = (decode stop rest).map (c :: ·) := by
  unfold pieceOf
  split
  next h =>
    rw [decode_unit stop rest (by omega), Char.ofNat_toNat]
  next => exact decode_char stop c rest

theorem pieces_escaped (cs rest : List Char) :
    pieces (cs.flatMap escapeChar ++ '"' :: rest) =
      (cs.map pieceOf, .closed rest) := by
  induction cs with
  | nil =>
      rw [List.flatMap_nil, List.nil_append, pieces.eq_def]
      simp
  | cons c cs ih =>
      rw [List.flatMap_cons, List.append_assoc, pieces_escapeChar, ih]
      rfl

theorem decode_map_pieceOf (cs rest : List Char) :
    decode (.closed rest) (cs.map pieceOf) = .ok cs := by
  induction cs with
  | nil => rfl
  | cons c cs ih =>
      rw [List.map_cons, decode_pieceOf, ih]
      rfl

/-- What follows the opening quote of a written text is read as the text, up to
the closing quote. -/
theorem readQuoted_quote (s : String) (rest : List Char) :
    readQuoted (s.toList.flatMap escapeChar ++ '"' :: rest) = .ok (.ok s, rest) := by
  rw [readQuoted, pieces_escaped]
  simp [decode_map_pieceOf, Except.map]

end BlockForge.Json
