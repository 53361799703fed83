import BlockForge.FieldNumber

/-!
The whole number at the start of a text.

`Leads` says which digits lead a text after blanks and a sign; there is always exactly
one such run, which may be empty.  It is read as its value with the sign, as long as a
word of 64 bits with a sign holds the digits alone.  So the smallest word is the one
number that is lost.
-/

namespace BlockForge.FieldNumber

/-- The sign that stands at the start of a text: a minus, a plus, or none where neither
is there. -/
inductive SignOf : Bool → List Char → List Char → Prop where
  | minus (rest : List Char) : SignOf true ['-'] rest
  | plus (rest : List Char) : SignOf false ['+'] rest
  | none {rest : List Char} (h : ∀ c ∈ rest.head?, c ≠ '-' ∧ c ≠ '+') : SignOf false [] rest

/-- After all blanks at its start and at most one sign, a text goes on with these digits
and no further one. -/
def Leads (text : String) (negative : Bool) (digits : List Char) : Prop :=
  ∃ blanks sign rest, text.toList = blanks ++ (sign ++ (digits ++ rest)) ∧
    (∀ c ∈ blanks, Text.isBlank c = true) ∧
    (∀ c ∈ (sign ++ (digits ++ rest)).head?, Text.isBlank c = false) ∧
    SignOf negative sign (digits ++ rest) ∧
    (∀ c ∈ digits, c.isDigit = true) ∧ ∀ c ∈ rest.head?, c.isDigit = false

/-- The whole number that digits with a sign write. -/
def signedValue (negative : Bool) (digits : List Char) : Int :=
  if negative then -(digitsValue digits : Int) else digitsValue digits

theorem trimStart_append {blanks cs : List Char} (hblanks : ∀ c ∈ blanks, Text.isBlank c = true)
    (hcs : ∀ c ∈ cs.head?, Text.isBlank c = false) : Text.trimStart (blanks ++ cs) = cs := by
  induction blanks with
  | nil => exact Text.trimStart_eq_self_iff.2 hcs
  | cons c blanks ih =>
      obtain ⟨hc, hblanks⟩ := List.forall_mem_cons.1 hblanks
      rw [List.cons_append, Text.trimStart_cons, if_pos hc, ih hblanks]

theorem signed_append {negative : Bool} {sign rest : List Char} (h : SignOf negative sign rest) :
    signed (sign ++ rest) = (negative, rest) := by
  cases h with
  | minus => rfl
  | plus => rfl
  | none h =>
      cases rest with
      | nil => rfl
      | cons c rest =>
          obtain ⟨hminus, hplus⟩ := h c rfl
          rw [List.nil_append]
          unfold signed
          split
          next heq => exact absurd (List.cons.inj heq).1 hminus
          next heq => exact absurd (List.cons.inj heq).1 hplus
          next => rfl

theorem exists_signOf (cs : List Char) :
    ∃ sign, SignOf (signed cs).1 sign (signed cs).2 ∧ cs = sign ++ (signed cs).2 := by
  unfold signed
  split
  next rest => exact ⟨['-'], .minus rest, rfl⟩
  next rest => exact ⟨['+'], .plus rest, rfl⟩
  next hminus hplus =>
    refine ⟨[], .none fun c hc => ?_, rfl⟩
    obtain ⟨rest, rfl⟩ := List.head?_eq_some_iff.1 hc
    exact ⟨fun h => hminus rest (h ▸ rfl), fun h => hplus rest (h ▸ rfl)⟩

theorem takeWhile_isDigit_append {digits rest : List Char}
    (hdigits : ∀ c ∈ digits, c.isDigit = true) (hrest : ∀ c ∈ rest.head?, c.isDigit = false) :
    (digits ++ rest).takeWhile Char.isDigit = digits := by
  rw [List.takeWhile_append_of_pos hdigits]
  cases rest with
  | nil => rw [List.takeWhile_nil, List.append_nil]
  | cons c rest =>
      have hc : ¬ c.isDigit = true := by rw [hrest c rfl]; decide
      rw [List.takeWhile_cons_of_neg hc, List.append_nil]

theorem of_head?_dropWhile {p : Char → Bool} {cs : List Char} :
    ∀ c ∈ (cs.dropWhile p).head?, p c = false := by
  intro c hc
  have h := List.head?_dropWhile_not p cs
  rw [Option.mem_def.1 hc] at h
  exact h

/-- The sign and the digits that the reader finds. -/
theorem Leads.signed_trimStart {text : String} {negative : Bool} {digits : List Char}
    (h : Leads text negative digits) :
    (signed (Text.trimStart text.toList)).1 = negative ∧
      (signed (Text.trimStart text.toList)).2.takeWhile Char.isDigit = digits := by
  obtain ⟨blanks, sign, rest, htext, hblanks, hhead, hsign, hdigits, hrest⟩ := h
  rw [htext, trimStart_append hblanks hhead, signed_append hsign]
  exact ⟨rfl, takeWhile_isDigit_append hdigits hrest⟩

theorem Leads.unique {text : String} {negative negative' : Bool} {digits digits' : List Char}
    (h : Leads text negative digits) (h' : Leads text negative' digits') :
    negative' = negative ∧ digits' = digits :=
  ⟨h'.signed_trimStart.1.symm.trans h.signed_trimStart.1,
    h'.signed_trimStart.2.symm.trans h.signed_trimStart.2⟩

/-- What the reader finds leads the text. -/
theorem leads_signed_trimStart (text : String) :
    Leads text (signed (Text.trimStart text.toList)).1
      ((signed (Text.trimStart text.toList)).2.takeWhile Char.isDigit) := by
  let cs := Text.trimStart text.toList
  obtain ⟨sign, hsign, hcs⟩ := exists_signOf cs
  have hsplit : (signed cs).2.takeWhile Char.isDigit ++ (signed cs).2.dropWhile Char.isDigit =
      (signed cs).2 := List.takeWhile_append_dropWhile
  refine ⟨text.toList.takeWhile Text.isBlank, sign, (signed cs).2.dropWhile Char.isDigit,
    ?_, ?_, ?_, ?_, ?_, of_head?_dropWhile⟩
  · rw [hsplit, ← hcs]
    exact List.takeWhile_append_dropWhile.symm
  · exact List.all_eq_true.1 List.all_takeWhile
  · rw [hsplit, ← hcs]
    exact of_head?_dropWhile
  · rw [hsplit]
    exact hsign
  · exact List.all_eq_true.1 List.all_takeWhile

theorem leadingInt?_eq_some_iff_of_leads {text : String} {negative : Bool} {digits : List Char}
    (h : Leads text negative digits) (v : Int) :
    leadingInt? text = some v ↔
      digits ≠ [] ∧ v = signedValue negative digits ∧ digitsValue digits ≤ Word.maxSigned := by
  obtain ⟨rfl, rfl⟩ := h.signed_trimStart
  rw [leadingInt?]
  dsimp only
  split
  next hnil => simp [hnil]
  next hnil =>
    split
    next hle =>
      rw [Option.some.injEq, ← signedValue]
      exact ⟨fun hv => ⟨hnil, hv.symm, hle⟩, fun hv => hv.2.1.symm⟩
    next hle => simp [hle]

/-- Digits with a sign are within the words with a sign, the smallest one apart, exactly
when the digits alone are. -/
theorem digitsValue_le_iff {negative : Bool} {digits : List Char} :
    digitsValue digits ≤ Word.maxSigned ↔
      Word.minSigned < signedValue negative digits ∧
        signedValue negative digits ≤ Word.maxSigned := by
  rw [signedValue, Word.minSigned, Word.maxSigned]
  cases negative with
  | true => rw [if_pos rfl]; omega
  | false => rw [if_neg Bool.false_ne_true]; omega

/-- Every text is led by one sign and one run of digits.  Its number is read exactly when
there are digits and their value with the sign is a word with a sign other than the
smallest. -/
theorem leadingInt?_exact (text : String) : ∃ negative digits, Leads text negative digits ∧
    (∀ negative' digits', Leads text negative' digits' →
      negative' = negative ∧ digits' = digits) ∧
    ∀ v, leadingInt? text = some v ↔
      digits ≠ [] ∧ v = signedValue negative digits ∧
        Word.minSigned < v ∧ v ≤ Word.maxSigned := by
  have h := leads_signed_trimStart text
  refine ⟨_, _, h, fun _ _ h' => h.unique h', fun v => ?_⟩
  rw [leadingInt?_eq_some_iff_of_leads h, digitsValue_le_iff]
  constructor
  · rintro ⟨hdigits, rfl, hrange⟩
    exact ⟨hdigits, rfl, hrange⟩
  · rintro ⟨hdigits, rfl, hrange⟩
    exact ⟨hdigits, rfl, hrange⟩

/-- The smallest word with a sign is not read, though its digits lead the text. -/
theorem leadingInt?_of_minSigned :
    Leads "-9223372036854775808" true "9223372036854775808".toList ∧
      signedValue true "9223372036854775808".toList = Word.minSigned ∧
      leadingInt? "-9223372036854775808" = none := by
  refine ⟨leads_signed_trimStart "-9223372036854775808", by decide +kernel, by decide +kernel⟩

end BlockForge.FieldNumber
