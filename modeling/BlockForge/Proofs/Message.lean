import BlockForge.Definition
import BlockForge.Instance

/-!
Messages of items: a message that is written from texts and arguments has the
tokens of those texts and arguments.

Two items of a message have a space between them.  `tokens_message` says that
nothing in a text is taken for a reference and that the references count the
arguments from one on.
-/

namespace BlockForge

open Message (Symbol Token)

variable {α β : Type}

/-- What rows and messages are made of: text as it is meant, or an argument. -/
inductive Item (α : Type) where
  | text (raw : String)
  | arg (arg : α)
deriving DecidableEq

namespace Item

def map (f : α → β) : Item α → Item β
  | .text raw => .text raw
  | .arg a => .arg (f a)

def arg? : Item α → Option α
  | .text _ => none
  | .arg a => some a

/-- The part of a message that an item becomes. -/
def part : Item Arg → MessagePart
  | .text raw => .text (escapePercent raw)
  | .arg a => .arg a

/-- The symbols of items, each after a space, with the arguments numbered from
the given number on. -/
def spaced : Nat → List (Item α) → List Symbol
  | _, [] => []
  | n, .text raw :: rest => .char ' ' :: (raw.toList.map .char ++ spaced n rest)
  | n, .arg _ :: rest => .char ' ' :: .reference n :: spaced (n + 1) rest

/-- A run of text as a token, unless it is empty. -/
def runTokens (run : List Char) : List Token :=
  if run = [] then [] else [.text run]

/-- The tokens of items, each after a space, when a run of text stands before
them. -/
def tokensFrom : List Char → Nat → List (Item α) → List Token
  | run, _, [] => runTokens run
  | run, n, .text raw :: rest => tokensFrom (run ++ ' ' :: raw.toList) n rest
  | run, n, .arg _ :: rest =>
      runTokens (run ++ [' ']) ++ .reference n :: tokensFrom [] (n + 1) rest

/-- The tokens of a message of items: the first item has no space before it. -/
def tokens : List (Item α) → List Token
  | [] => []
  | .text raw :: rest => tokensFrom raw.toList 1 rest
  | .arg _ :: rest => .reference 1 :: tokensFrom [] 2 rest

@[simp] theorem part_arg? (item : Item Arg) : item.part.arg? = item.arg? := by
  cases item <;> rfl

end Item

namespace Message

theorem consText_runTokens (c : Char) (run : List Char) (n : Nat)
    (rest : List Token) :
    consText c (Item.runTokens run ++ .reference n :: rest) =
      Item.runTokens (c :: run) ++ .reference n :: rest := by
  cases run <;> rfl

/-- A run of characters before a reference is one token. -/
theorem join_run_reference (run : List Char) (n : Nat) (rest : List Symbol) :
    join (run.map .char ++ .reference n :: rest) =
      Item.runTokens run ++ .reference n :: join rest := by
  induction run with
  | nil => rfl
  | cons c run ih =>
      rw [List.map_cons, List.cons_append, join, ih]
      exact consText_runTokens c run n (join rest)

/-- A run of characters at the end is one token. -/
theorem join_run (run : List Char) :
    join (run.map .char) = Item.runTokens run := by
  induction run with
  | nil => rfl
  | cons c run ih =>
      rw [List.map_cons, join, ih]
      cases run <;> rfl

theorem join_spaced (run : List Char) (n : Nat) (items : List (Item α)) :
    join (run.map .char ++ Item.spaced n items) =
      Item.tokensFrom run n items := by
  induction items generalizing run n with
  | nil =>
      rw [Item.spaced, List.append_nil]
      exact join_run run
  | cons item rest ih =>
      cases item with
      | text raw =>
          have hrun : run.map Symbol.char ++ Item.spaced n (.text raw :: rest) =
              (run ++ ' ' :: raw.toList).map Symbol.char ++ Item.spaced n rest := by
            simp [Item.spaced]
          rw [hrun, ih]
          rfl
      | arg a =>
          have hrun : run.map Symbol.char ++ Item.spaced n (.arg a :: rest) =
              (run ++ [' ']).map Symbol.char ++
                .reference n :: Item.spaced (n + 1) rest := by
            simp [Item.spaced]
          rw [hrun, join_run_reference]
          have hnil := ih [] (n + 1)
          rw [List.map_nil, List.nil_append] at hnil
          rw [hnil]
          rfl

/-- Reading leaves the percent state after both halves of an escaped percent
sign, so escaped text is read as it was meant whatever follows it. -/
theorem symbolsFrom_escape (raw rest : List Char) :
    symbolsFrom .plain
        (raw.flatMap (fun c => if c = '%' then ['%', '%'] else [c]) ++ rest) =
      raw.map .char ++ symbolsFrom .plain rest := by
  induction raw with
  | nil => rfl
  | cons c raw ih =>
      by_cases hc : c = '%'
      · subst hc
        simpa [symbolsFrom] using ih
      · simpa [symbolsFrom, hc] using ih

/-- Digits that end before another character are read as one number. -/
theorem symbolsFrom_digits (digits rest : List Char) (n : Nat)
    (hdigits : ∀ c ∈ digits, c.isDigit = true)
    (hrest : ∀ c ∈ rest.head?, c.isDigit = false) :
    symbolsFrom (.digits n) (digits ++ rest) =
      .reference (Nat.ofDigitChars 10 digits n) :: symbolsFrom .plain rest := by
  induction digits generalizing n with
  | nil =>
      cases rest with
      | nil => rfl
      | cons c rest => simp [symbolsFrom, hrest c rfl]
  | cons c digits ih =>
      have hc := hdigits c List.mem_cons_self
      have htail := ih (10 * n + digitValue c)
        fun d hd => hdigits d (List.mem_cons_of_mem c hd)
      simpa [symbolsFrom, hc, Nat.ofDigitChars_cons, digitValue] using htail

/-- A percent sign and digits that end before another character are one reference. -/
theorem symbolsFrom_percent_digits {digits : List Char} (rest : List Char) (hne : digits ≠ [])
    (hdigits : ∀ c ∈ digits, c.isDigit = true)
    (hrest : ∀ c ∈ rest.head?, c.isDigit = false) :
    symbolsFrom .plain ('%' :: (digits ++ rest)) =
      .reference (Nat.ofDigitChars 10 digits 0) :: symbolsFrom .plain rest := by
  cases digits with
  | nil => exact absurd rfl hne
  | cons d ds =>
      have hd := hdigits d List.mem_cons_self
      have hpercent : d ≠ '%' := by
        rintro rfl
        exact absurd hd (by decide)
      have hds := symbolsFrom_digits ds rest (digitValue d)
        (fun c hc => hdigits c (List.mem_cons_of_mem d hc)) hrest
      rw [Nat.ofDigitChars_cons]
      simp only [List.cons_append, symbolsFrom, ↓reduceIte, hpercent, hd]
      rw [hds, digitValue]
      simp

/-- A percent sign and the decimal numeral of a number refer to that number. -/
theorem symbolsFrom_reference (n : Nat) (rest : List Char)
    (hrest : ∀ c ∈ rest.head?, c.isDigit = false) :
    symbolsFrom .plain ('%' :: (Nat.toDigits 10 n ++ rest)) =
      .reference n :: symbolsFrom .plain rest := by
  have hall : ∀ c ∈ Nat.toDigits 10 n, c.isDigit = true := fun c hc =>
    Nat.isDigit_of_mem_toDigits (by decide) (by decide) hc
  have hvalue : Nat.ofDigitChars 10 (Nat.toDigits 10 n) 0 = n :=
    Nat.ofDigitChars_ten_toDigits
  rw [symbolsFrom_percent_digits rest Nat.toDigits_ne_nil hall hrest, hvalue]

end Message

namespace Item

/-- The text of the parts after the first one: each has a space before it. -/
def spacedText (n : Nat) (items : List (Item Arg)) : List Char :=
  (MessagePart.numbered n (items.map part)).flatMap fun text => ' ' :: text.toList

theorem spacedText_head (n : Nat) (items : List (Item Arg)) :
    ∀ c ∈ (spacedText n items).head?, c.isDigit = false := by
  intro c hc
  cases items with
  | nil => simp [spacedText, MessagePart.numbered] at hc
  | cons item rest =>
      have hspace : c = ' ' := by
        cases item <;> simpa [spacedText, part, MessagePart.numbered] using hc.symm
      rw [hspace]
      decide

theorem symbolsFrom_spacedText (n : Nat) (items : List (Item Arg)) :
    Message.symbolsFrom .plain (spacedText n items) = spaced n items := by
  induction items generalizing n with
  | nil => rfl
  | cons item rest ih =>
      cases item with
      | text raw =>
          have htext : spacedText n (.text raw :: rest) =
              ' ' :: ((escapePercent raw).toList ++ spacedText n rest) := by
            simp [spacedText, part, MessagePart.numbered]
          rw [htext, escapePercent, String.toList_ofList]
          simp [Message.symbolsFrom, Message.symbolsFrom_escape, ih, spaced]
      | arg a =>
          have htext : spacedText n (.arg a :: rest) =
              ' ' :: '%' :: (Nat.toDigits 10 n ++ spacedText (n + 1) rest) := by
            simp [spacedText, part, MessagePart.numbered]
          have href := Message.symbolsFrom_reference n _
            (spacedText_head (n + 1) rest)
          rw [htext, spaced, ← ih (n + 1), ← href]
          simp [Message.symbolsFrom]

/-- The characters of a message: the first part, and then the others with a
space before each. -/
theorem toList_message (item : Item Arg) (rest : List (Item Arg)) :
    ' ' :: (MessagePart.message ((item :: rest).map part)).toList =
      spacedText 1 (item :: rest) := by
  have hjoin (first : String) (texts : List String) :
      (String.intercalate " " (first :: texts)).toList =
        first.toList ++ texts.flatMap fun text => ' ' :: text.toList := by
    induction texts generalizing first with
    | nil => simp
    | cons second texts ih => simp [String.intercalate_cons_cons, ih]
  cases item <;>
    simp [MessagePart.message, MessagePart.numbered, part, spacedText, hjoin]

/-- A message of items has the tokens of its items. -/
theorem tokens_message (items : List (Item Arg)) :
    Message.tokens (MessagePart.message (items.map part)) = tokens items := by
  cases items with
  | nil => rfl
  | cons item rest =>
      have hsymbols : .char ' ' :: Message.symbols
          (MessagePart.message ((item :: rest).map part)).toList =
            spaced 1 (item :: rest) := by
        rw [← symbolsFrom_spacedText, ← toList_message]
        simp [Message.symbolsFrom, Message.symbols]
      have htokens (run : List Char) (n : Nat) :=
        Message.join_spaced run n rest
      rw [Message.tokens]
      cases item with
      | text raw =>
          rw [spaced, List.cons.injEq] at hsymbols
          rw [hsymbols.2, htokens]
          rfl
      | arg a =>
          rw [spaced, List.cons.injEq] at hsymbols
          rw [hsymbols.2, Message.join, ← List.nil_append (spaced _ _),
            ← List.map_nil, htokens]
          rfl

end Item

end BlockForge
