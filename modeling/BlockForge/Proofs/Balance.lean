import BlockForge.Source
import Mathlib.Data.List.Basic

/-!
Balance as a machine over characters.

`Cursor.step` reads one character, knowing what it is part of and which brackets are
open.  A text is balanced when the machine gets through all of it and nothing is left
open at the end (`flaw?_eq_none_iff`).  Machines compose: what leads from one cursor to
another may be cut anywhere, and brackets that stay open below do not matter.
-/

namespace BlockForge.Source

/-- What the next character is part of.  After a slash it may begin a comment. -/
inductive Context where
  | code
  | slash
  | text (quote : Char)
  | escape (quote : Char)
  | lineComment
  | blockComment (afterStar : Bool)
deriving DecidableEq

/-- A place in a text: the context there, and the open brackets, the innermost first. -/
structure Cursor where
  context : Context
  opened : List Char
deriving DecidableEq

namespace Cursor

/-- Close the innermost bracket. -/
def close? (c : Char) : List Char → Option (List Char)
  | [] => none
  | bracket :: opened => if closer? bracket = some c then some opened else none

/-- Read a character outside of texts and comments. -/
def stepCode (opened : List Char) (c : Char) : Option Cursor :=
  if isQuote c then some ⟨.text c, opened⟩
  else if c = '/' then some ⟨.slash, opened⟩
  else if (closer? c).isSome then some ⟨.code, c :: opened⟩
  else if isCloser c then (close? c opened).map fun opened => ⟨.code, opened⟩
  else some ⟨.code, opened⟩

/-- Read a character.  Only a bracket that closes nothing stops the machine. -/
def step : Cursor → Char → Option Cursor
  | ⟨.code, opened⟩, c => stepCode opened c
  | ⟨.slash, opened⟩, c =>
      if c = '/' then some ⟨.lineComment, opened⟩
      else if c = '*' then some ⟨.blockComment false, opened⟩
      else stepCode opened c
  | ⟨.text quote, opened⟩, c =>
      some ⟨if c = '\\' then .escape quote else if c = quote then .code else .text quote, opened⟩
  | ⟨.escape quote, opened⟩, _ => some ⟨.text quote, opened⟩
  | ⟨.lineComment, opened⟩, c => some ⟨if c = '\n' then .code else .lineComment, opened⟩
  | ⟨.blockComment afterStar, opened⟩, c =>
      some ⟨if afterStar ∧ c = '/' then .code else .blockComment (c == '*'), opened⟩

/-- Read all characters. -/
def run (cursor : Cursor) (cs : List Char) : Option Cursor :=
  cs.foldlM step cursor

/-- Whether a text may end here. -/
def isComplete : Cursor → Bool
  | ⟨.code, []⟩ => true
  | ⟨.slash, []⟩ => true
  | ⟨.lineComment, []⟩ => true
  | _ => false

@[simp] theorem run_nil (cursor : Cursor) : cursor.run [] = some cursor := rfl

theorem run_cons (cursor : Cursor) (c : Char) (cs : List Char) :
    cursor.run (c :: cs) = (cursor.step c).bind fun next => next.run cs := rfl

theorem run_append (cursor : Cursor) (cs ds : List Char) :
    cursor.run (cs ++ ds) = (cursor.run cs).bind fun next => next.run ds :=
  List.foldlM_append

/-- A cursor that every character leads back to is led back to by all of them. -/
theorem run_of_forall {a : Cursor} {cs : List Char} (h : ∀ c ∈ cs, a.step c = some a) :
    a.run cs = some a := by
  induction cs with
  | nil => rfl
  | cons c cs ih =>
      rw [run_cons, h c List.mem_cons_self]
      exact ih fun d hd => h d (List.mem_cons_of_mem c hd)

theorem close?_below {c : Char} {opened rest : List Char} (h : close? c opened = some rest)
    (below : List Char) : close? c (opened ++ below) = some (rest ++ below) := by
  cases opened with
  | nil => cases h
  | cons bracket opened =>
      rw [close?, Option.ite_none_right_eq_some] at h
      rw [List.cons_append, close?, if_pos h.1, Option.some.inj h.2]

theorem stepCode_below {opened : List Char} {b : Cursor} {c : Char}
    (h : stepCode opened c = some b) (below : List Char) :
    stepCode (opened ++ below) c = some ⟨b.context, b.opened ++ below⟩ := by
  unfold stepCode at h ⊢
  split_ifs at h ⊢
  · obtain rfl := Option.some.inj h
    rfl
  · obtain rfl := Option.some.inj h
    rfl
  · obtain rfl := Option.some.inj h
    rfl
  · obtain ⟨rest, hrest, rfl⟩ := Option.map_eq_some_iff.1 h
    rw [close?_below hrest below]
    rfl
  · obtain rfl := Option.some.inj h
    rfl

/-- Brackets that are open below stay open. -/
theorem step_below {a b : Cursor} {c : Char} (h : a.step c = some b) (below : List Char) :
    step ⟨a.context, a.opened ++ below⟩ c = some ⟨b.context, b.opened ++ below⟩ := by
  obtain ⟨context, opened⟩ := a
  cases context with
  | code => exact stepCode_below h below
  | slash =>
      simp only [step] at h ⊢
      split at h
      next hslash =>
        obtain rfl := Option.some.inj h
        rw [if_pos hslash]
      next hslash =>
        rw [if_neg hslash]
        split at h
        next hstar =>
          obtain rfl := Option.some.inj h
          rw [if_pos hstar]
        next hstar =>
          rw [if_neg hstar]
          exact stepCode_below h below
  | _ =>
      obtain rfl := Option.some.inj h
      rfl

theorem run_below {a b : Cursor} {cs : List Char} (h : a.run cs = some b)
    (below : List Char) :
    run ⟨a.context, a.opened ++ below⟩ cs = some ⟨b.context, b.opened ++ below⟩ := by
  induction cs generalizing a with
  | nil =>
      obtain rfl := Option.some.inj h
      rfl
  | cons c cs ih =>
      rw [run_cons] at h ⊢
      obtain ⟨next, hnext, h⟩ := Option.bind_eq_some_iff.1 h
      rw [step_below hnext below]
      exact ih h

end Cursor

/-- The context of a mode. -/
def Mode.context : Mode → Context
  | .code => .code
  | .text quote _ => .text quote
  | .escape quote _ => .escape quote
  | .lineComment => .lineComment
  | .blockComment _ afterStar => .blockComment afterStar

theorem flawFrom_eq_none_iff (mode : Mode) (stack : List (Char × Nat)) (pos : Nat)
    (cs : List Char) :
    flawFrom mode stack pos cs = none ↔
      ((Cursor.mk mode.context (stack.map Prod.fst)).run cs).any Cursor.isComplete = true := by
  -- The text ends in cases 1 to 5.  Cases 6 to 12 lie inside texts and comments, 14 to
  -- 17 at a slash, where two characters are read at once, and the others in code.
  fun_induction flawFrom mode stack pos cs with
  | case1 | case2 | case3 | case5 => simp [Mode.context, Cursor.isComplete]
  | case4 mode _ htext hescape hcomment =>
      cases mode with
      | code => simp [Mode.context, Cursor.isComplete]
      | lineComment => simp [Mode.context, Cursor.isComplete]
      | text quote start => exact (htext quote start rfl).elim
      | escape quote start => exact (hescape quote start rfl).elim
      | blockComment start afterStar => exact (hcomment start afterStar rfl).elim
  | case6 | case7 | case8 | case9 => simp_all [Cursor.run_cons, Cursor.step, Mode.context]
  | case10 _ _ c _ ih =>
      rw [ih]
      by_cases hend : c = '\n' <;> simp [hend, Cursor.run_cons, Cursor.step, Mode.context]
  | case11 _ _ _ _ _ _ h ih => simp [ih, Cursor.run_cons, Cursor.step, Mode.context, h]
  | case12 _ _ _ _ _ _ h ih =>
      simp only [ih, Cursor.run_cons, Cursor.step, Mode.context, if_neg h, Option.bind_some]
  | case14 stack =>
      cases stack <;> simp_all [Cursor.run_cons, Cursor.step, Cursor.stepCode, Cursor.isComplete,
        Mode.context]
  | case13 | case15 | case16 | case17 | case18 | case22 =>
      simp_all [Cursor.run_cons, Cursor.step, Cursor.stepCode, Mode.context]
  | case19 | case20 | case21 =>
      simp_all [Cursor.run_cons, Cursor.step, Cursor.stepCode, Cursor.close?, Mode.context]

/-- A text is balanced when the machine gets through it and may stop at its end. -/
theorem flaw?_eq_none_iff (text : String) :
    flaw? text = none ↔
      ((Cursor.mk .code []).run text.toList).any Cursor.isComplete = true :=
  flawFrom_eq_none_iff .code [] 0 text.toList

/-- A text leads the machine from one cursor to another. -/
def Leads (a : Cursor) (text : String) (b : Cursor) : Prop :=
  a.run text.toList = some b

instance (a b : Cursor) (text : String) : Decidable (Leads a text b) :=
  inferInstanceAs (Decidable (a.run text.toList = some b))

namespace Leads

variable {a b c : Cursor} {s t : String}

theorem append (hs : Leads a s b) (ht : Leads b t c) : Leads a (s ++ t) c := by
  rw [Leads, String.toList_append, Cursor.run_append, hs]
  exact ht

theorem below (h : Leads a s b) (opened : List Char) :
    Leads ⟨a.context, a.opened ++ opened⟩ s ⟨b.context, b.opened ++ opened⟩ :=
  Cursor.run_below h opened

/-- A cursor that every character of a text leads back to is led back to by the text. -/
theorem of_forall (h : ∀ c ∈ s.toList, a.step c = some a) : Leads a s a :=
  Cursor.run_of_forall h

end Leads

/-- A text that ends outside of texts and comments when it begins there, and closes the
brackets it opens and no others. -/
def Closed (text : String) : Prop :=
  ∀ opened, Leads ⟨.code, opened⟩ text ⟨.code, opened⟩

theorem Closed.append {s t : String} (hs : Closed s) (ht : Closed t) : Closed (s ++ t) :=
  fun opened => (hs opened).append (ht opened)

/-- What may stand in a quoted text: from inside the text it leads back inside, and
leaves no bracket open or closed. -/
def Quotable (text : String) : Prop :=
  Leads ⟨.text '\x27', []⟩ text ⟨.text '\x27', []⟩

/-- A text without quotes and backslashes may be quoted. -/
theorem quotable_of_forall {text : String}
    (h : ∀ c ∈ text.toList, c ≠ '\x27' ∧ c ≠ '\\') : Quotable text := by
  refine Leads.of_forall fun c hc => ?_
  rw [Cursor.step, if_neg (h c hc).2, if_neg (h c hc).1]

instance (text : String) : Decidable (Quotable text) :=
  inferInstanceAs (Decidable (Leads _ text _))

-- Quotes in a text do no harm if the text between two of them is closed.
example : Quotable "a', 'b" ∧ ¬ Quotable "it's" ∧ ¬ Quotable "a\\" := by decide

end BlockForge.Source
