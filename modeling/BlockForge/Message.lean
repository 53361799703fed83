/-!
Messages: text with numbered references.

A percent sign and digits refer to an argument, two percent signs are one percent
sign of the text, and any other percent sign stands for itself.  `Message.tokens`
gives the references and the runs of text between them, in order.
-/

namespace BlockForge.Message

/-- A character of the text, or a reference by its number. -/
inductive Symbol where
  | char (c : Char)
  | reference (number : Nat)
deriving DecidableEq

/-- What was read just before: nothing to remember, a percent sign, or a percent
sign and digits. -/
inductive State where
  | plain
  | percent
  | digits (number : Nat)
deriving DecidableEq

def digitValue (c : Char) : Nat :=
  c.toNat - '0'.toNat

/-- The symbols of a message, read in some state. -/
def symbolsFrom : State → List Char → List Symbol
  | .plain, [] => []
  | .percent, [] => [.char '%']
  | .digits n, [] => [.reference n]
  | .plain, c :: cs =>
      if c = '%' then symbolsFrom .percent cs else .char c :: symbolsFrom .plain cs
  | .percent, c :: cs =>
      if c = '%' then .char '%' :: symbolsFrom .plain cs
      else if c.isDigit then symbolsFrom (.digits (digitValue c)) cs
      else .char '%' :: .char c :: symbolsFrom .plain cs
  | .digits n, c :: cs =>
      if c.isDigit then symbolsFrom (.digits (10 * n + digitValue c)) cs
      else
        .reference n ::
          if c = '%' then symbolsFrom .percent cs else .char c :: symbolsFrom .plain cs

/-- The symbols of a message. -/
def symbols (cs : List Char) : List Symbol :=
  symbolsFrom .plain cs

/-- A run of text, or a reference. -/
inductive Token where
  | text (run : List Char)
  | reference (number : Nat)
deriving DecidableEq

/-- Put a character in front of the first run of text. -/
def consText (c : Char) : List Token → List Token
  | .text run :: rest => .text (c :: run) :: rest
  | rest => .text [c] :: rest

/-- Join the characters that stand next to each other. -/
def join : List Symbol → List Token
  | [] => []
  | .char c :: rest => consText c (join rest)
  | .reference n :: rest => .reference n :: join rest

/-- The tokens of a message. -/
def tokens (message : String) : List Token :=
  join (symbols message.toList)

example : tokens "100%% of %1 and %23" =
    [.text "100% of ".toList, .reference 1, .text " and ".toList, .reference 23] := by
  decide +kernel

end BlockForge.Message
