/-!
Balanced source text.

Source in the C family of notations is cut into text literals, comments and
single characters; every literal and block comment has to close, and the
brackets among the single characters have to pair up.  `Source.flaw?` reads the
text once, with the brackets that are open, and gives the first flaw.  Positions
count characters.
-/

namespace BlockForge.Source

/-- Why a text is not balanced. -/
inductive Flaw where
  | openText (start : Nat)
  | openComment (start : Nat)
  | unexpected (bracket : Char) (position : Nat)
  | neverClosed (bracket : Char) (position : Nat)
deriving DecidableEq

def Flaw.message : Flaw → String
  | .openText start => "unterminated string starting at " ++ toString start
  | .openComment start => "unterminated comment starting at " ++ toString start
  | .unexpected bracket position =>
      "unexpected '" ++ String.singleton bracket ++ "' at " ++ toString position
  | .neverClosed bracket position =>
      "'" ++ String.singleton bracket ++ "' at " ++ toString position ++ " is never closed"

/-- What the next character is part of. -/
inductive Mode where
  | code
  | text (quote : Char) (start : Nat)
  | escape (quote : Char) (start : Nat)
  | lineComment
  | blockComment (start : Nat) (afterStar : Bool)
deriving DecidableEq

def isQuote (c : Char) : Bool :=
  c == '"' || c == '\x27' || c == '\x60'

/-- The bracket that closes what an opening one opens. -/
def closer? (c : Char) : Option Char :=
  if c = '(' then some ')'
  else if c = '[' then some ']'
  else if c = '\x7b' then some '\x7d'
  else none

def isCloser (c : Char) : Bool :=
  c == ')' || c == ']' || c == '\x7d'

/-- Read on in some mode at some position, with the open brackets and their
positions, the innermost first. -/
def flawFrom : Mode → List (Char × Nat) → Nat → List Char → Option Flaw
  | .text _ start, _, _, [] => some (.openText start)
  | .escape _ start, _, _, [] => some (.openText start)
  | .blockComment start _, _, _, [] => some (.openComment start)
  | _, [], _, [] => none
  | _, (bracket, position) :: _, _, [] => some (.neverClosed bracket position)
  | .text quote start, stack, pos, c :: cs =>
      if c = '\\' then flawFrom (.escape quote start) stack (pos + 1) cs
      else if c = quote then flawFrom .code stack (pos + 1) cs
      else flawFrom (.text quote start) stack (pos + 1) cs
  | .escape quote start, stack, pos, _ :: cs => flawFrom (.text quote start) stack (pos + 1) cs
  | .lineComment, stack, pos, c :: cs =>
      flawFrom (if c = '\n' then .code else .lineComment) stack (pos + 1) cs
  | .blockComment start afterStar, stack, pos, c :: cs =>
      if afterStar ∧ c = '/' then flawFrom .code stack (pos + 1) cs
      else flawFrom (.blockComment start (c == '*')) stack (pos + 1) cs
  | .code, stack, pos, c :: cs =>
      if isQuote c then flawFrom (.text c pos) stack (pos + 1) cs
      else if c = '/' then
        match cs with
        | [] => flawFrom .code stack (pos + 1) []
        | d :: rest =>
            if d = '/' then flawFrom .lineComment stack (pos + 2) rest
            else if d = '*' then flawFrom (.blockComment pos false) stack (pos + 2) rest
            else flawFrom .code stack (pos + 1) (d :: rest)
      else if (closer? c).isSome then flawFrom .code ((c, pos) :: stack) (pos + 1) cs
      else if isCloser c then
        match stack with
        | (bracket, _) :: stack =>
            if closer? bracket = some c then flawFrom .code stack (pos + 1) cs
            else some (.unexpected c pos)
        | [] => some (.unexpected c pos)
      else flawFrom .code stack (pos + 1) cs

/-- The first flaw of a text, if it is not balanced. -/
def flaw? (text : String) : Option Flaw :=
  flawFrom .code [] 0 text.toList

example : flaw? "/* ( */ f(1)" = none ∧ flaw? "f(1" = some (.neverClosed '(' 1) ∧
    flaw? "f(1]" = some (.unexpected ']' 3) ∧ flaw? "/*/" = some (.openComment 0) := by
  decide +kernel

end BlockForge.Source
