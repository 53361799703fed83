import BlockForge.Json.Quote
import BlockForge.Json.Numeral

/-!
Drafts: what a text holds when it is read from left to right as JSON.

A draft has the shape of the value in the text up to the first place where the
text goes wrong; there it holds the flaw.  Readers of values walk a draft in the
order of the text, so the first problem they meet is the first one in the text,
be it one of form or one of content.  A flaw is reported differently by a reader
that uses the value and by one that skips it.

`Draft.ofText` is total: every list of characters has a draft.
-/

namespace BlockForge.Json

/-- Why no value could be read at some place. -/
inductive Flaw where
  | ended
  | noValue
  | badText (used skipped : Fault)
  | badNumber (used : Fault)
  | badWord (fault : Fault)
  /-- The word for null goes wrong. -/
  | badNull (fault : Fault)
  | noColon
  | endedBeforeColon
deriving DecidableEq

/-- Why an array does not go on or close at some place. -/
inductive ListFlaw where
  | ended
  | noSeparator
  | endedAfterComma
  | closedAfterComma
deriving DecidableEq

/-- Why an object does not go on or close at some place. -/
inductive ObjectFlaw where
  | ended
  | badKey (used skipped : Fault)
  | noSeparator
  | endedAfterComma
  | closedAfterComma
deriving DecidableEq

mutual

/-- A value as it stands in a text.  Numbers and texts of sound form may still be
out of range or fail to decode. -/
inductive Draft where
  | null
  | bool (value : Bool)
  | number (value : Except Fault Number)
  | text (value : Except Fault String)
  | array (items : DraftItems)
  | object (members : DraftMembers)
  | broken (flaw : Flaw)

/-- The elements of an array up to its bracket or to a flaw. -/
inductive DraftItems where
  | done
  | item (value : Draft) (rest : DraftItems)
  | broken (flaw : ListFlaw)

/-- The members of an object up to its brace or to a flaw.  Where a key has to
stand and something else does, `noKey` holds what a value read there would be. -/
inductive DraftMembers where
  | done
  | member (key : Except Fault String) (value : Draft) (rest : DraftMembers)
  | noKey (found : Draft)
  | broken (flaw : ObjectFlaw)

end

/-- What a reader reports that uses the value. -/
def Flaw.fault : Flaw → Fault
  | .ended => .endOfValue
  | .noValue => .expectedValue
  | .badText used _ => used
  | .badNumber used => used
  | .badWord fault => fault
  | .badNull fault => fault
  | .noColon => .expectedColon
  | .endedBeforeColon => .endOfObject

/-- What a reader reports that skips the value. -/
def Flaw.skipFault : Flaw → Fault
  | .badText _ skipped => skipped
  | .badNumber _ => .invalidNumber
  | flaw => flaw.fault

def ListFlaw.fault : ListFlaw → Fault
  | .ended => .endOfList
  | .noSeparator => .expectedListSeparator
  | .endedAfterComma => .endOfValue
  | .closedAfterComma => .trailingComma

def ListFlaw.skipFault : ListFlaw → Fault
  | .closedAfterComma => .expectedValue
  | flaw => flaw.fault

/-- What a reader reports that has all the elements it wants. -/
def ListFlaw.surplusFault : ListFlaw → Fault
  | .ended => .endOfList
  | .closedAfterComma => .trailingComma
  | _ => .trailingCharacters

def ObjectFlaw.fault : ObjectFlaw → Fault
  | .ended => .endOfObject
  | .badKey used _ => used
  | .noSeparator => .expectedObjectSeparator
  | .endedAfterComma => .endOfValue
  | .closedAfterComma => .trailingComma

def ObjectFlaw.skipFault : ObjectFlaw → Fault
  | .badKey _ skipped => skipped
  | .endedAfterComma => .endOfObject
  | .closedAfterComma => .keyNotText
  | flaw => flaw.fault

/-- The characters JSON allows between the parts of a value. -/
def isSpace (c : Char) : Bool :=
  c == ' ' || c == '\t' || c == '\r' || c == '\n'

def skipSpace (cs : List Char) : List Char :=
  cs.dropWhile isSpace

/-- The letters of a word, one after the other, and what follows them. -/
def letters : List Char → List Char → Except Fault (List Char)
  | [], cs => .ok cs
  | _ :: _, [] => .error .endOfValue
  | l :: ls, c :: cs => if c = l then letters ls cs else .error .expectedWord

/-- One of the three words, given its flaw and the letters after the first one. -/
def readWord (value : Draft) (flaw : Fault → Flaw) (tail cs : List Char) : Draft × List Char :=
  match letters tail cs with
  | .ok rest => (value, rest)
  | .error fault => (.broken (flaw fault), [])

/-- A numeral, given with its first character. -/
def readNumeral (cs : List Char) : Draft × List Char :=
  match numeral cs with
  | .ok (value, rest) => (.number value, rest)
  | .error fault => (.broken (.badNumber fault), [])

/-- What follows an opening quote: the text, and what follows the closing quote or
the faults of the literal for readers that use it and that skip it. -/
def readQuoted (cs : List Char) : Except (Fault × Fault) (Except Fault String × List Char) :=
  let (ps, stop) := pieces cs
  let value := (decode stop ps).map String.ofList
  match stop, stop.fault? with
  | .closed rest, _ => .ok (value, rest)
  | _, some skipped =>
      match value with
      | .error used => .error (used, skipped)
      | .ok _ => .error (skipped, skipped)
  | _, none => .error (.endOfText, .endOfText)

mutual

/-- A value and what follows it.  After a flaw nothing follows. -/
def readValue : Nat → List Char → Draft × List Char
  | 0, _ => (.broken .ended, [])
  | n + 1, cs =>
      match skipSpace cs with
      | [] => (.broken .ended, [])
      | c :: rest =>
          if c = '[' then
            match skipSpace rest with
            | [] => (.array (.broken .ended), [])
            | d :: after =>
                if d = ']' then (.array .done, after)
                else
                  let (items, after) := readItems n (d :: after)
                  (.array items, after)
          else if c = '\x7b' then
            match skipSpace rest with
            | [] => (.object (.broken .ended), [])
            | d :: after =>
                if d = '\x7d' then (.object .done, after)
                else
                  let (members, after) := readMembers n (d :: after)
                  (.object members, after)
          else if c = '"' then
            match readQuoted rest with
            | .ok (value, after) => (.text value, after)
            | .error (used, skipped) => (.broken (.badText used skipped), [])
          else if c = '-' ∨ c.isDigit then readNumeral (c :: rest)
          else if c = 'n' then readWord .null .badNull ['u', 'l', 'l'] rest
          else if c = 't' then readWord (.bool true) .badWord ['r', 'u', 'e'] rest
          else if c = 'f' then readWord (.bool false) .badWord ['a', 'l', 's', 'e'] rest
          else (.broken .noValue, [])

/-- An element, the elements after it, and what follows the array. -/
def readItems : Nat → List Char → DraftItems × List Char
  | 0, _ => (.broken .ended, [])
  | n + 1, cs =>
      let (value, after) := readValue n cs
      match skipSpace after with
      | [] => (.item value (.broken .ended), [])
      | c :: after =>
          if c = ']' then (.item value .done, after)
          else if c = ',' then
            match skipSpace after with
            | [] => (.item value (.broken .endedAfterComma), [])
            | d :: after =>
                if d = ']' then (.item value (.broken .closedAfterComma), [])
                else
                  let (items, after) := readItems n (d :: after)
                  (.item value items, after)
          else (.item value (.broken .noSeparator), [])

/-- A member, the members after it, and what follows the object. -/
def readMembers : Nat → List Char → DraftMembers × List Char
  | 0, _ => (.broken .ended, [])
  | _ + 1, [] => (.broken .ended, [])
  | n + 1, c :: rest =>
      if c = '"' then
        match readQuoted rest with
        | .error (used, skipped) => (.broken (.badKey used skipped), [])
        | .ok (key, after) =>
            match skipSpace after with
            | [] => (.member key (.broken .endedBeforeColon) .done, [])
            | d :: after =>
                if d = ':' then
                  let (value, after) := readValue n after
                  match skipSpace after with
                  | [] => (.member key value (.broken .ended), [])
                  | e :: after =>
                      if e = '\x7d' then (.member key value .done, after)
                      else if e = ',' then
                        match skipSpace after with
                        | [] => (.member key value (.broken .endedAfterComma), [])
                        | f :: after =>
                            if f = '\x7d' then
                              (.member key value (.broken .closedAfterComma), [])
                            else
                              let (members, after) := readMembers n (f :: after)
                              (.member key value members, after)
                      else (.member key value (.broken .noSeparator), [])
                else (.member key (.broken .noColon) .done, [])
      else (.noKey (readValue n (c :: rest)).1, [])

end

/-- The draft of a text, and whether anything but spaces follows it. -/
structure Draft.Whole where
  value : Draft
  trailing : Bool

/-- The draft of a text. -/
def Draft.ofText (cs : List Char) : Draft.Whole :=
  let (value, rest) := readValue (2 * cs.length + 2) cs
  ⟨value, !(skipSpace rest).isEmpty⟩

end BlockForge.Json
