import BlockForge.Text.Unprintable

/-!
Quoted text for messages to people.

A message shows a text it found between double quotes, so that blanks and
unprintable characters stay visible: quotes and backslashes get a backslash, the
usual controls their letter, and any other unprintable character its code point
in lowercase hexadecimal.
-/

namespace BlockForge.Text

/-- The digits of a code point in lowercase hexadecimal. -/
def hexDigits (n : Nat) : List Char :=
  Nat.toDigits 16 n

/-- How one character of a quoted text is shown. -/
def showChar (c : Char) : List Char :=
  if c == '"' then ['\\', '"']
  else if c == '\\' then ['\\', '\\']
  else if c == '\t' then ['\\', 't']
  else if c == '\r' then ['\\', 'r']
  else if c == '\n' then ['\\', 'n']
  else if c == '\x00' then ['\\', '0']
  else if isUnprintable c then '\\' :: 'u' :: '\x7b' :: hexDigits c.toNat ++ ['\x7d']
  else [c]

/-- A text between double quotes with every character visible. -/
def quoted (s : String) : String :=
  String.ofList ('"' :: s.toList.flatMap showChar ++ ['"'])

example : quoted "a\"\n" = "\"a\\\"\\n\"" := by decide +kernel

end BlockForge.Text
