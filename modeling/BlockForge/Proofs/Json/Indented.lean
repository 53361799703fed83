import BlockForge.Json.Reader
import BlockForge.Json.Writer
import BlockForge.Proofs.Json.Literal
import BlockForge.Proofs.Json.Numeral

/-!
Written JSON read back: a value within the number ranges and the nesting depth of
the readers comes back from its indented form.

`Within.readsBack` is about drafts and holds wherever the text of a value stands;
`ofText_toIndented` is about whole texts.
-/

namespace BlockForge.Json

open Double

/-- A number that is read back from its text. -/
def Number.InRange : Number → Prop
  | .integer i => Word.minSigned ≤ i ∧ i ≤ Word.maxUnsigned
  | .real x => x.isFinite = true

/-- Numbers in range, and arrays and objects at most so many levels deep. -/
inductive Within : Nat → Json → Prop where
  | null {levels : Nat} : Within levels .null
  | bool {levels : Nat} (value : Bool) : Within levels (.bool value)
  | number {levels : Nat} {value : Number} (h : value.InRange) : Within levels (.number value)
  | text {levels : Nat} (value : String) : Within levels (.text value)
  | array {levels : Nat} {items : List Json} (h : ∀ v ∈ items, Within levels v) :
      Within (levels + 1) (.array items)
  | object {levels : Nat} {members : List (String × Json)}
      (h : ∀ m ∈ members, Within levels m.2) : Within (levels + 1) (.object members)

mutual

/-- The draft of a text that holds just this value. -/
def draft : Json → Draft
  | .null => .null
  | .bool value => .bool value
  | .number value => .number (.ok value)
  | .text value => .text (.ok value)
  | .array items => .array (draftItems items)
  | .object members => .object (draftMembers members)

def draftItems : List Json → DraftItems
  | [] => .done
  | v :: rest => .item v.draft (draftItems rest)

def draftMembers : List (String × Json) → DraftMembers
  | [] => .done
  | (k, v) :: rest => .member (.ok k) v.draft (draftMembers rest)

end

theorem exists_succ {n : Nat} (h : 0 < n) : ∃ m, n = m + 1 :=
  ⟨n - 1, by omega⟩

theorem skipSpace_cons {c : Char} (hc : isSpace c = false) (rest : List Char) :
    skipSpace (c :: rest) = c :: rest := by
  simp [skipSpace, hc]

@[simp] theorem skipSpace_comma (rest : List Char) : skipSpace (',' :: rest) = ',' :: rest :=
  skipSpace_cons rfl rest

@[simp] theorem skipSpace_colon (rest : List Char) : skipSpace (':' :: rest) = ':' :: rest :=
  skipSpace_cons rfl rest

@[simp] theorem skipSpace_bracket (rest : List Char) : skipSpace (']' :: rest) = ']' :: rest :=
  skipSpace_cons rfl rest

@[simp] theorem skipSpace_brace (rest : List Char) :
    skipSpace ('\x7d' :: rest) = '\x7d' :: rest :=
  skipSpace_cons rfl rest

@[simp] theorem skipSpace_quote (k : String) (rest : List Char) :
    skipSpace (quote k ++ rest) = quote k ++ rest :=
  skipSpace_cons rfl _

theorem newLine_length_pos (level : Nat) : 0 < (newLine level).length :=
  Nat.zero_lt_succ _

@[simp] theorem skipSpace_newLine (level : Nat) (cs : List Char) :
    skipSpace (newLine level ++ cs) = skipSpace cs := by
  have hspaces : ∀ k, skipSpace (List.replicate k ' ' ++ cs) = skipSpace cs := by
    intro k
    induction k with
    | zero => rfl
    | succ k ih => exact ih
  exact hspaces (2 * level)

@[simp] theorem readValue_space (n : Nat) (cs : List Char) :
    readValue n (' ' :: cs) = readValue n cs := by
  cases n with
  | zero => rw [readValue, readValue]
  | succ n =>
      have hskip : skipSpace (' ' :: cs) = skipSpace cs := rfl
      rw [readValue, readValue, hskip]

theorem text_parts {p : NumeralParts} (h : p.Sound) :
    ∃ c cs, p.text = c :: cs ∧ (c = '-' ∨ c.isDigit = true) := by
  obtain ⟨negative, whole, fraction, power⟩ := p
  cases negative with
  | true => exact ⟨'-', _, rfl, .inl rfl⟩
  | false =>
      cases hwhole : whole with
      | nil => exact absurd hwhole h.whole.1
      | cons d ds =>
          refine ⟨d, _, rfl, .inr (h.whole.2 d ?_)⟩
          change d ∈ whole
          rw [hwhole]
          exact List.mem_cons_self

theorem text_inRange {x : Number} (hx : x.InRange) :
    ∃ c cs, x.text = c :: cs ∧ (c = '-' ∨ c.isDigit = true) := by
  cases x with
  | integer i =>
      change ∃ c cs, integerText i = c :: cs ∧ _
      rw [← text_integerParts]
      exact text_parts (sound_integerParts i)
  | real x =>
      cases x with
      | nan => cases hx
      | infinite negative => cases hx
      | finite negative rank =>
          obtain ⟨p, hp, htext⟩ := exists_parts_decimalText (shortest negative rank)
          change ∃ c cs, decimalText (shortest negative rank) = c :: cs ∧ _
          rw [← htext]
          exact text_parts hp.sound

theorem digit_not {d : Char} (hd : d = '-' ∨ d.isDigit = true) :
    isSpace d = false ∧ d ≠ ']' ∧ d ≠ '[' ∧ d ≠ '\x7b' ∧ d ≠ '"' := by
  have hne {e : Char} (hminus : e ≠ '-') (he : e.isDigit = false) : d ≠ e := by
    rintro rfl
    rcases hd with rfl | hd
    · exact hminus rfl
    · rw [he] at hd
      cases hd
  refine ⟨?_, ?_, ?_, ?_, ?_⟩
  · have hspaces := And.intro (@hne ' ' (by decide) (by decide))
      (And.intro (@hne '\t' (by decide) (by decide))
        (And.intro (@hne '\r' (by decide) (by decide)) (@hne '\n' (by decide) (by decide))))
    simpa [isSpace, and_assoc] using hspaces
  all_goals exact hne (by decide) (by decide)

/-- A written value starts with a character that is neither a space nor a bracket
that closes. -/
theorem Within.head {levels : Nat} {v : Json} (h : Within levels v) (level : Nat) :
    ∃ c cs, v.indented level = c :: cs ∧ isSpace c = false ∧ c ≠ ']' := by
  cases h with
  | null => exact ⟨'n', _, rfl, by decide, by decide⟩
  | bool value =>
      cases value with
      | false => exact ⟨'f', _, rfl, by decide, by decide⟩
      | true => exact ⟨'t', _, rfl, by decide, by decide⟩
  | @number _ x hx =>
      obtain ⟨c, cs, htext, hc⟩ := text_inRange hx
      obtain ⟨hspace, hbracket, _⟩ := digit_not hc
      exact ⟨c, cs, htext, hspace, hbracket⟩
  | text value => exact ⟨'"', _, rfl, by decide, by decide⟩
  | @array _ items =>
      cases items with
      | nil => exact ⟨'[', _, rfl, by decide, by decide⟩
      | cons v items => exact ⟨'[', _, rfl, by decide, by decide⟩
  | @object _ members =>
      cases members with
      | nil => exact ⟨'\x7b', _, rfl, by decide, by decide⟩
      | cons m members => exact ⟨'\x7b', _, rfl, by decide, by decide⟩

/-- The indented form is read back wherever it stands, as long as the fuel covers
its length and no numeral could go on after it. -/
def ReadsBack (v : Json) : Prop :=
  (∀ level, ∃ c cs, v.indented level = c :: cs ∧ isSpace c = false ∧ c ≠ ']') ∧
    ∀ level n rest, (v.indented level).length ≤ n → Stops rest →
      readValue n (v.indented level ++ rest) = (v.draft, rest)

theorem readValue_number {x : Number} (hx : x.InRange) {n : Nat} {rest : List Char}
    (hn : x.text.length ≤ n) (hrest : Stops rest) :
    readValue n (x.text ++ rest) = (.number (.ok x), rest) := by
  have hread : readNumeral (x.text ++ rest) = (.number (.ok x), rest) := by
    rw [readNumeral]
    cases x with
    | integer i =>
        have htext : (Number.integer i).text = integerText i := rfl
        rw [htext, numeral_integerText hx.1 hx.2 hrest]
    | real x =>
        cases x with
        | nan => cases hx
        | infinite negative => cases hx
        | finite negative rank => rw [numeral_real negative rank hrest]
  obtain ⟨c, cs, htext, hc⟩ := text_inRange hx
  obtain ⟨hspace, _, hbracket, hbrace, hquote⟩ := digit_not hc
  rw [htext] at hn hread ⊢
  obtain ⟨n, rfl⟩ := exists_succ (Nat.lt_of_lt_of_le (Nat.zero_lt_succ _) hn)
  rw [List.cons_append] at hread ⊢
  rw [readValue, skipSpace_cons hspace]
  simp only [hbracket, hbrace, hquote, hc, if_false, if_true]
  exact hread

theorem readValue_text (s : String) {n : Nat} (rest : List Char) (hn : 0 < n) :
    readValue n (quote s ++ rest) = (.text (.ok s), rest) := by
  obtain ⟨n, rfl⟩ := exists_succ hn
  rw [quote, List.cons_append, List.append_assoc, readValue, skipSpace_cons rfl]
  simp only [List.singleton_append, readQuoted_quote, if_true,
    show '"' ≠ '[' by decide, show '"' ≠ '\x7b' by decide, if_false]

theorem stops_newLine (level : Nat) (rest : List Char) : Stops (newLine level ++ rest) :=
  stops_cons _ (by decide)

/-- The elements of an array, from the first one to the bracket that closes it. -/
theorem readItems_indented (level outer : Nat) (tail : List Char) (v : Json)
    (items : List Json) (hv : ReadsBack v) (hitems : ∀ w ∈ items, ReadsBack w) (n : Nat)
    (hn : (v.indented level).length + (indentedItems level items).length < n) :
    readItems n (v.indented level ++ (indentedItems level items ++
        (newLine outer ++ ']' :: tail))) = (.item v.draft (draftItems items), tail) := by
  obtain ⟨n, rfl⟩ := exists_succ (Nat.zero_lt_of_lt hn)
  induction items generalizing v n with
  | nil =>
      have hread := hv.2 level n (newLine outer ++ ']' :: tail) (by omega) (stops_newLine _ _)
      rw [indentedItems, List.nil_append, readItems, hread]
      simp only [skipSpace_newLine, skipSpace_bracket, if_true]
      rfl
  | cons w items ih =>
      have hw := hitems w List.mem_cons_self
      obtain ⟨c, cs, hhead, hspace, hbracket⟩ := hw.1 level
      have hnewLine := newLine_length_pos level
      rw [indentedItems, List.length_cons, List.length_append, List.length_append] at hn
      have hread := hv.2 level n (',' :: (newLine level ++ w.indented level ++
        indentedItems level items) ++ (newLine outer ++ ']' :: tail)) (by omega)
        (stops_cons _ (by decide))
      obtain ⟨n, rfl⟩ := exists_succ (show 0 < n by omega)
      have hrest := ih w hw (fun u hu => hitems u (List.mem_cons_of_mem w hu)) n (by omega)
      rw [indentedItems, readItems, hread]
      simp only [List.cons_append, List.append_assoc, skipSpace_comma, skipSpace_newLine]
      rw [hhead] at hrest ⊢
      rw [List.cons_append] at hrest ⊢
      rw [skipSpace_cons hspace]
      simp only [hbracket, hrest, if_false, if_true, show ',' ≠ ']' by decide]
      rfl

/-- The members of an object, from the first key to the brace that closes it. -/
theorem readMembers_indented (level outer : Nat) (tail : List Char) (k : String) (v : Json)
    (members : List (String × Json)) (hv : ReadsBack v)
    (hmembers : ∀ m ∈ members, ReadsBack m.2) (n : Nat)
    (hn : (v.indented level).length + (indentedMembers level members).length < n) :
    readMembers n (quote k ++ ':' :: ' ' :: (v.indented level ++
        (indentedMembers level members ++ (newLine outer ++ '\x7d' :: tail)))) =
      (.member (.ok k) v.draft (draftMembers members), tail) := by
  obtain ⟨n, rfl⟩ := exists_succ (Nat.zero_lt_of_lt hn)
  induction members generalizing k v n with
  | nil =>
      have hread := hv.2 level n (newLine outer ++ '\x7d' :: tail) (by omega)
        (stops_newLine _ _)
      rw [indentedMembers, List.nil_append, quote, List.cons_append, List.append_assoc,
        readMembers, if_pos rfl, List.singleton_append, readQuoted_quote]
      simp only [skipSpace_colon, if_true, readValue_space, hread, skipSpace_newLine,
        skipSpace_brace]
      rfl
  | cons m members ih =>
      obtain ⟨key, w⟩ := m
      have hw := hmembers (key, w) List.mem_cons_self
      have hnewLine := newLine_length_pos level
      rw [indentedMembers] at hn
      simp only [List.length_cons, List.length_append] at hn
      have hread := hv.2 level n (',' :: (newLine level ++ (quote key ++ ':' :: ' ' ::
        (w.indented level ++ (indentedMembers level members ++
          (newLine outer ++ '\x7d' :: tail)))))) (by omega) (stops_cons _ (by decide))
      obtain ⟨n, rfl⟩ := exists_succ (show 0 < n by omega)
      have hrest := ih key w hw (fun u hu => hmembers u (List.mem_cons_of_mem _ hu)) n
        (by omega)
      rw [indentedMembers, quote, List.cons_append, List.append_assoc, readMembers, if_pos rfl,
        List.singleton_append, readQuoted_quote]
      simp only [skipSpace_colon, if_true, readValue_space, List.cons_append,
        List.append_assoc, hread, skipSpace_newLine, skipSpace_comma, skipSpace_quote,
        show ',' ≠ '\x7d' by decide, if_false]
      rw [quote, List.cons_append] at hrest ⊢
      simp only [show '"' ≠ '\x7d' by decide, if_false, hrest]
      rfl

theorem readValue_array (level : Nat) (v : Json) (items : List Json)
    (h : ∀ w ∈ v :: items, ReadsBack w) {n : Nat} (rest : List Char)
    (hn : ((Json.array (v :: items)).indented level).length ≤ n) :
    readValue n ((Json.array (v :: items)).indented level ++ rest) =
      ((Json.array (v :: items)).draft, rest) := by
  have hv := h v List.mem_cons_self
  obtain ⟨c, cs, hhead, hspace, hbracket⟩ := hv.1 (level + 1)
  have hnewLine := newLine_length_pos (level + 1)
  rw [indented] at hn ⊢
  simp only [List.length_cons, List.length_append] at hn
  obtain ⟨n, rfl⟩ := exists_succ (show 0 < n by omega)
  have hread := readItems_indented (level + 1) level rest v items hv
    (fun w hw => h w (List.mem_cons_of_mem v hw)) n (by omega)
  simp only [List.cons_append, List.append_assoc, List.nil_append]
  rw [readValue, skipSpace_cons rfl]
  simp only [skipSpace_newLine, if_true]
  rw [hhead] at hread ⊢
  rw [List.cons_append] at hread ⊢
  rw [skipSpace_cons hspace]
  simp only [hbracket, if_false, hread]
  rfl

theorem readValue_object (level : Nat) (k : String) (v : Json)
    (members : List (String × Json)) (h : ∀ m ∈ (k, v) :: members, ReadsBack m.2) {n : Nat}
    (rest : List Char) (hn : ((Json.object ((k, v) :: members)).indented level).length ≤ n) :
    readValue n ((Json.object ((k, v) :: members)).indented level ++ rest) =
      ((Json.object ((k, v) :: members)).draft, rest) := by
  have hv : ReadsBack v := h (k, v) List.mem_cons_self
  have hnewLine := newLine_length_pos (level + 1)
  rw [indented] at hn ⊢
  simp only [List.length_cons, List.length_append] at hn
  obtain ⟨n, rfl⟩ := exists_succ (show 0 < n by omega)
  have hread := readMembers_indented (level + 1) level rest k v members hv
    (fun m hm => h m (List.mem_cons_of_mem _ hm)) n (by omega)
  simp only [List.cons_append, List.append_assoc, List.nil_append]
  rw [readValue, skipSpace_cons rfl]
  simp only [skipSpace_newLine, skipSpace_quote, if_true, show '\x7b' ≠ '[' by decide, if_false]
  rw [quote, List.cons_append] at hread ⊢
  simp only [show '"' ≠ '\x7d' by decide, if_false, hread]
  rfl

/-- A written value is not empty, so there is fuel for its first character. -/
theorem Within.readsBack_of_succ {levels : Nat} {v : Json} (h : Within levels v)
    (hread : ∀ level n rest, (v.indented level).length ≤ n + 1 → Stops rest →
      readValue (n + 1) (v.indented level ++ rest) = (v.draft, rest)) : ReadsBack v := by
  refine ⟨h.head, ?_⟩
  intro level n rest hn hrest
  obtain ⟨c, cs, hhead, _⟩ := h.head level
  have hpos : 0 < (v.indented level).length := by
    rw [hhead]
    exact Nat.zero_lt_succ _
  obtain ⟨n, rfl⟩ := exists_succ (Nat.lt_of_lt_of_le hpos hn)
  exact hread level n rest hn hrest

/-- Values within the ranges of the readers are read back. -/
theorem Within.readsBack {levels : Nat} {v : Json} (h : Within levels v) : ReadsBack v := by
  induction h with
  | @null levels =>
      apply (Within.null : Within levels .null).readsBack_of_succ
      intro level n rest _ _
      rw [readValue]
      rfl
  | @bool levels value =>
      apply (Within.bool value : Within levels _).readsBack_of_succ
      intro level n rest _ _
      rw [readValue]
      cases value <;> rfl
  | @number levels value hx =>
      apply (Within.number hx : Within levels _).readsBack_of_succ
      intro level n rest hn hrest
      exact readValue_number hx hn hrest
  | @text levels value =>
      apply (Within.text value : Within levels _).readsBack_of_succ
      intro level n rest _ _
      exact readValue_text value rest (Nat.zero_lt_succ n)
  | @array levels items hitems ih =>
      apply (Within.array hitems).readsBack_of_succ
      intro level n rest hn _
      cases items with
      | nil =>
          rw [readValue]
          rfl
      | cons v items => exact readValue_array level v items ih rest hn
  | @object levels members hmembers ih =>
      apply (Within.object hmembers).readsBack_of_succ
      intro level n rest hn _
      cases members with
      | nil =>
          rw [readValue]
          rfl
      | cons m members => exact readValue_object level m.1 m.2 members ih rest hn

theorem toJson_draftItems {levels : Nat} {items : List Json}
    (h : ∀ v ∈ items, v.draft.toJson levels = .ok v) :
    (draftItems items).toJson levels = .ok items := by
  induction items with
  | nil => rfl
  | cons v items ih =>
      have hitems := ih fun w hw => h w (List.mem_cons_of_mem v hw)
      rw [draftItems, DraftItems.toJson, h v List.mem_cons_self, hitems]
      rfl

theorem toJson_draftMembers {levels : Nat} {members : List (String × Json)}
    (h : ∀ m ∈ members, m.2.draft.toJson levels = .ok m.2) :
    (draftMembers members).toJson levels = .ok members := by
  induction members with
  | nil => rfl
  | cons m members ih =>
      obtain ⟨k, v⟩ := m
      have hmembers := ih fun w hw => h w (List.mem_cons_of_mem _ hw)
      have hv : v.draft.toJson levels = .ok v := h (k, v) List.mem_cons_self
      rw [draftMembers, DraftMembers.toJson, hv, hmembers]
      rfl

/-- The draft of a value holds the value. -/
theorem Within.toJson_draft {levels : Nat} {v : Json} (h : Within levels v) :
    v.draft.toJson levels = .ok v := by
  induction h with
  | null => rfl
  | bool value => rfl
  | number h => rfl
  | text value => rfl
  | array h ih =>
      rw [draft, Draft.toJson, toJson_draftItems ih]
      rfl
  | object h ih =>
      rw [draft, Draft.toJson, toJson_draftMembers ih]
      rfl

/-- A written text is read by what reads its value, and nothing is left over. -/
theorem readText_toIndented {α : Type} {levels : Nat} {v : Json} (h : Within levels v)
    (read : Nat → Draft → Except Fault α) :
    readText v.toIndented read = read nestingLimit v.draft := by
  have hread := h.readsBack.2 0 (2 * (v.indented 0).length + 2) [] (by omega) stops_nil
  rw [List.append_nil] at hread
  have hwhole : Draft.ofText v.toIndented.toList = ⟨v.draft, false⟩ := by
    rw [toIndented, String.toList_ofList, Draft.ofText, hread]
    rfl
  rw [readText, hwhole, Draft.Whole.read]
  cases read nestingLimit v.draft <;> rfl

end BlockForge.Json
