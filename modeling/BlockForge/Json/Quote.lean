import BlockForge.Json.Fault

/-!
Text literals: writing them between quotes and reading them back.

A written literal escapes quotes, backslashes and the controls below U+0020, and
nothing else.  A literal is read in two steps.  `pieces` cuts what follows the
opening quote into characters and the sixteen-bit units of numeric escapes, and
says how the literal ends; `decode` joins pairs of surrogate units.  A value that
is skipped only has to end well, a value that is used has to decode.
-/

namespace BlockForge.Json

/-- A digit of a number written in hexadecimal. -/
def hexDigit (n : Nat) : Char :=
  Nat.digitChar n

/-- How one character stands in a literal. -/
def escapeChar (c : Char) : List Char :=
  if c = '"' then ['\\', '"']
  else if c = '\\' then ['\\', '\\']
  else if c = '\x08' then ['\\', 'b']
  else if c = '\x0c' then ['\\', 'f']
  else if c = '\n' then ['\\', 'n']
  else if c = '\r' then ['\\', 'r']
  else if c = '\t' then ['\\', 't']
  else if c.toNat < 0x20 then
    ['\\', 'u', '0', '0', hexDigit (c.toNat / 16), hexDigit (c.toNat % 16)]
  else [c]

/-- A text as a literal. -/
def quote (s : String) : List Char :=
  '"' :: (s.toList.flatMap escapeChar ++ ['"'])

/-- A part of a literal: a character, or the unit a numeric escape stands for. -/
inductive Piece where
  | char (c : Char)
  | unit (value : Nat)
deriving DecidableEq

/-- How a literal ends: at its closing quote, with the characters after it, or
where it goes wrong. -/
inductive QuoteEnd where
  | closed (rest : List Char)
  | ended
  | badDigits
  | badEscape
  | control
deriving DecidableEq

/-- The value of a hexadecimal digit in either case. -/
def hexValue? (c : Char) : Option Nat :=
  if '0' ≤ c ∧ c ≤ '9' then some (c.toNat - '0'.toNat)
  else if 'a' ≤ c ∧ c ≤ 'f' then some (c.toNat - 'a'.toNat + 10)
  else if 'A' ≤ c ∧ c ≤ 'F' then some (c.toNat - 'A'.toNat + 10)
  else none

/-- The value of four hexadecimal digits. -/
def hexUnit? (a b c d : Char) : Option Nat :=
  match hexValue? a, hexValue? b, hexValue? c, hexValue? d with
  | some w, some x, some y, some z => some (((w * 16 + x) * 16 + y) * 16 + z)
  | _, _, _, _ => none

/-- The character a backslash and a letter stand for. -/
def letterEscape? (c : Char) : Option Char :=
  if c = '"' then some '"'
  else if c = '\\' then some '\\'
  else if c = '/' then some '/'
  else if c = 'b' then some '\x08'
  else if c = 'f' then some '\x0c'
  else if c = 'n' then some '\n'
  else if c = 'r' then some '\r'
  else if c = 't' then some '\t'
  else none

/-- The number of bytes of a text in UTF-8. -/
def byteCount (cs : List Char) : Nat :=
  cs.foldl (fun n c => n + c.utf8Size) 0

/-- Cut what follows an opening quote into pieces.  A numeric escape takes the
next four bytes, so one near the end of the text is unfinished, not wrong. -/
def pieces : List Char → List Piece × QuoteEnd
  | [] => ([], .ended)
  | c :: rest =>
      if c = '"' then ([], .closed rest)
      else if c = '\\' then
        match rest with
        | [] => ([], .ended)
        | letter :: rest =>
            if letter = 'u' then
              match rest with
              | w :: x :: y :: z :: rest =>
                  match hexUnit? w x y z with
                  | some n => let (ps, e) := pieces rest; (.unit n :: ps, e)
                  | none => ([], .badDigits)
              | short => ([], if byteCount short < 4 then .ended else .badDigits)
            else
              match letterEscape? letter with
              | some c => let (ps, e) := pieces rest; (.char c :: ps, e)
              | none => ([], .badEscape)
      else if c.toNat < 0x20 then ([], .control)
      else let (ps, e) := pieces rest; (.char c :: ps, e)

/-- The fault of a literal that does not reach its closing quote. -/
def QuoteEnd.fault? : QuoteEnd → Option Fault
  | .closed _ => none
  | .ended => some .endOfText
  | .badDigits => some .invalidEscape
  | .badEscape => some .invalidEscape
  | .control => some .controlCharacter

/-- The fault when the first unit of a pair is followed by an end of the literal.
A second numeric escape that is itself at fault is reported as such. -/
def QuoteEnd.pairFault : QuoteEnd → Fault
  | .ended => .endOfText
  | .badDigits => .invalidEscape
  | _ => .unfinishedPair

def isHighSurrogate (n : Nat) : Bool :=
  0xD800 ≤ n && n ≤ 0xDBFF

def isLowSurrogate (n : Nat) : Bool :=
  0xDC00 ≤ n && n ≤ 0xDFFF

/-- The character two surrogate units stand for. -/
def joinSurrogates (high low : Nat) : Char :=
  Char.ofNat ((high - 0xD800) * 0x400 + (low - 0xDC00) + 0x10000)

/-- The characters of a literal.  Surrogate units have to come in pairs, the high
one first. -/
def decode (stop : QuoteEnd) : List Piece → Except Fault (List Char)
  | [] =>
      match stop.fault? with
      | none => .ok []
      | some f => .error f
  | .char c :: rest => (decode stop rest).map (c :: ·)
  | .unit n :: rest =>
      if isLowSurrogate n then .error .loneSurrogate
      else if isHighSurrogate n then
        match rest with
        | [] => .error stop.pairFault
        | .char _ :: _ => .error .unfinishedPair
        | .unit m :: rest =>
            if isLowSurrogate m then (decode stop rest).map (joinSurrogates n m :: ·)
            else .error .loneSurrogate
      else (decode stop rest).map (Char.ofNat n :: ·)

example : quote "a\"\n\x01" = "\"a\\\"\\n\\u0001\"".toList := by decide +kernel

example : pieces "x\\u0041\" y".toList = ([.char 'x', .unit 0x41], .closed " y".toList) := by
  decide +kernel

end BlockForge.Json
