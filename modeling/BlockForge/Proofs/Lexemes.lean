import BlockForge.Proofs.Balance

/-!
Balance in two phases.

`Cut` cuts a source text into literals, comments and single characters, and `WellNested`
says of a word of brackets that they pair up.  The machine gets through a text exactly
when all literals and comments of its parts close and their brackets pair up
(`Cut.run_iff`), and a word pairs up exactly when it is well nested.
-/

namespace BlockForge.Source

/-- What may stand between two quotes: a backslash hides the character after it. -/
inductive Quoted (quote : Char) : List Char → Prop where
  | nil : Quoted quote []
  | plain {c : Char} {cs : List Char} (hquote : c ≠ quote) (hslash : c ≠ '\\')
      (h : Quoted quote cs) : Quoted quote (c :: cs)
  | hidden {c : Char} {cs : List Char} (h : Quoted quote cs) : Quoted quote ('\\' :: c :: cs)

/-- A part of a source text.  A literal or a block comment may be left open. -/
inductive Lexeme where
  | literal (quote : Char) (body : List Char) (closed : Bool)
  | lineComment (body : List Char)
  | blockComment (body : List Char) (closed : Bool)
  | single (c : Char)

/-- Whether a part is closed where it has to be. -/
def Lexeme.isClosed : Lexeme → Bool
  | .literal _ _ closed => closed
  | .blockComment _ closed => closed
  | _ => true

def isBracket (c : Char) : Bool :=
  (closer? c).isSome || isCloser c

/-- The bracket that a part is. -/
def Lexeme.bracket? : Lexeme → Option Char
  | .single c => if isBracket c then some c else none
  | _ => none

/-- The parts of a source text from left to right.  What is left open reaches to the end
of the text, and a slash stands alone where it begins no comment. -/
inductive Cut : List Char → List Lexeme → Prop where
  | nil : Cut [] []
  | literal {quote : Char} {body rest : List Char} {lexemes : List Lexeme}
      (hquote : isQuote quote = true) (hbody : Quoted quote body) (hrest : Cut rest lexemes) :
      Cut (quote :: (body ++ quote :: rest)) (.literal quote body true :: lexemes)
  | openLiteral {quote : Char} {body : List Char} (hquote : isQuote quote = true)
      (hbody : Quoted quote body) : Cut (quote :: body) [.literal quote body false]
  | hiddenEnd {quote : Char} {body : List Char} (hquote : isQuote quote = true)
      (hbody : Quoted quote body) :
      Cut (quote :: (body ++ ['\\'])) [.literal quote (body ++ ['\\']) false]
  | lineComment {body rest : List Char} {lexemes : List Lexeme} (hbody : '\n' ∉ body)
      (hrest : Cut rest lexemes) :
      Cut ('/' :: '/' :: (body ++ '\n' :: rest)) (.lineComment body :: lexemes)
  | lastComment {body : List Char} (hbody : '\n' ∉ body) :
      Cut ('/' :: '/' :: body) [.lineComment body]
  | blockComment {body rest : List Char} {lexemes : List Lexeme}
      (hbody : ¬ ['*', '/'] <:+: body) (hrest : Cut rest lexemes) :
      Cut ('/' :: '*' :: (body ++ '*' :: '/' :: rest)) (.blockComment body true :: lexemes)
  | openComment {body : List Char} (hbody : ¬ ['*', '/'] <:+: body) :
      Cut ('/' :: '*' :: body) [.blockComment body false]
  | single {c : Char} {rest : List Char} {lexemes : List Lexeme} (hquote : isQuote c = false)
      (hslash : c = '/' → ∀ d ∈ rest.head?, d ≠ '/' ∧ d ≠ '*') (hrest : Cut rest lexemes) :
      Cut (c :: rest) (.single c :: lexemes)

/-- Words of brackets that pair up. -/
inductive WellNested : List Char → Prop where
  | nil : WellNested []
  | pair {opener closer : Char} {inner rest : List Char} (h : closer? opener = some closer)
      (hinner : WellNested inner) (hrest : WellNested rest) :
      WellNested (opener :: (inner ++ closer :: rest))

/-- What follows a quote closes at some place, or is left open.  A backslash takes the
character after it along, so the induction is on the length. -/
theorem quoted_cases (quote : Char) (cs : List Char) :
    (∃ body rest, cs = body ++ quote :: rest ∧ Quoted quote body) ∨ Quoted quote cs ∨
      ∃ body, cs = body ++ ['\\'] ∧ Quoted quote body := by
  induction hlength : cs.length using Nat.strongRecOn generalizing cs with
  | ind n ih =>
      subst hlength
      cases cs with
      | nil => exact .inr (.inl .nil)
      | cons c cs =>
          by_cases hquote : c = quote
          · subst hquote
            exact .inl ⟨[], cs, rfl, .nil⟩
          by_cases hslash : c = '\\'
          · subst hslash
            cases cs with
            | nil => exact .inr (.inr ⟨[], rfl, .nil⟩)
            | cons d cs =>
                have hshorter : cs.length < ('\\' :: d :: cs).length := by
                  rw [List.length_cons, List.length_cons]
                  omega
                rcases ih cs.length hshorter cs rfl with ⟨body, rest, rfl, h⟩ | h | ⟨body, rfl, h⟩
                · exact .inl ⟨_, rest, rfl, .hidden h⟩
                · exact .inr (.inl (.hidden h))
                · exact .inr (.inr ⟨_, rfl, .hidden h⟩)
          · rcases ih cs.length (Nat.lt_succ_self _) cs rfl with
              ⟨body, rest, rfl, h⟩ | h | ⟨body, rfl, h⟩
            · exact .inl ⟨_, rest, rfl, .plain hquote hslash h⟩
            · exact .inr (.inl (.plain hquote hslash h))
            · exact .inr (.inr ⟨_, rfl, .plain hquote hslash h⟩)

/-- A character before some text ends no block comment if it begins none of its ends. -/
theorem not_infix_cons {c : Char} {body : List Char} (hbody : ¬ ['*', '/'] <:+: body)
    (hend : c = '*' → body.head? ≠ some '/') : ¬ ['*', '/'] <:+: c :: body := by
  rw [List.infix_cons_iff]
  rintro (hfirst | hlater)
  · obtain ⟨tail, htail⟩ := hfirst
    obtain ⟨hc, hbody⟩ := List.cons.inj htail
    exact hend hc.symm (by rw [← hbody]; rfl)
  · exact hbody hlater

/-- What follows the opening of a block comment closes at some place, or is left open. -/
theorem blockComment_cases (cs : List Char) :
    (∃ body rest, cs = body ++ '*' :: '/' :: rest ∧ ¬ ['*', '/'] <:+: body) ∨
      ¬ ['*', '/'] <:+: cs := by
  induction cs with
  | nil => exact .inr (by simp)
  | cons c cs ih =>
      by_cases hend : c = '*' ∧ cs.head? = some '/'
      · obtain ⟨rfl, hhead⟩ := hend
        obtain ⟨rest, rfl⟩ := List.head?_eq_some_iff.1 hhead
        exact .inl ⟨[], rest, rfl, by simp⟩
      · have hnot : c = '*' → cs.head? ≠ some '/' := fun hc hhead => hend ⟨hc, hhead⟩
        rcases ih with ⟨body, rest, rfl, hbody⟩ | hcs
        · refine .inl ⟨c :: body, rest, rfl, not_infix_cons hbody ?_⟩
          intro hc hhead
          refine hnot hc ?_
          rw [List.head?_append, hhead]
          rfl
        · exact .inr (not_infix_cons hcs hnot)

/-- A slash can be cut off, together with the comment that it begins. -/
theorem exists_cut_slash {rest : List Char}
    (h : ∀ tail, tail.length ≤ rest.length → ∃ lexemes, Cut tail lexemes) :
    ∃ lexemes, Cut ('/' :: rest) lexemes := by
  by_cases hcomment : ∀ d ∈ rest.head?, d ≠ '/' ∧ d ≠ '*'
  · obtain ⟨lexemes, hrest⟩ := h rest (Nat.le_refl _)
    exact ⟨_, .single (by decide) (fun _ => hcomment) hrest⟩
  cases rest with
  | nil => exact absurd nofun hcomment
  | cons d tail =>
      by_cases hslash : d = '/'
      · subst hslash
        by_cases hline : '\n' ∈ tail
        · obtain ⟨body, rest, rfl, hbody⟩ := List.eq_append_cons_of_mem hline
          obtain ⟨lexemes, hrest⟩ := h rest (by simp; omega)
          exact ⟨_, .lineComment hbody hrest⟩
        · exact ⟨_, .lastComment hline⟩
      · have hstar : d = '*' := by
          by_contra hstar
          refine hcomment ?_
          intro e he
          obtain rfl := Option.some.inj he
          exact ⟨hslash, hstar⟩
        subst hstar
        rcases blockComment_cases tail with ⟨body, rest, rfl, hbody⟩ | hbody
        · obtain ⟨lexemes, hrest⟩ := h rest (by simp; omega)
          exact ⟨_, .blockComment hbody hrest⟩
        · exact ⟨_, .openComment hbody⟩

/-- Every text can be cut. -/
theorem exists_cut (cs : List Char) : ∃ lexemes, Cut cs lexemes := by
  induction hlength : cs.length using Nat.strongRecOn generalizing cs with
  | ind n ih =>
      subst hlength
      cases cs with
      | nil => exact ⟨[], .nil⟩
      | cons c rest =>
          have hshorter (tail : List Char) (htail : tail.length ≤ rest.length) :
              ∃ lexemes, Cut tail lexemes :=
            ih tail.length (Nat.lt_succ_of_le htail) tail rfl
          by_cases hslash : c = '/'
          · subst hslash
            exact exists_cut_slash hshorter
          cases hquote : isQuote c with
          | false =>
              obtain ⟨lexemes, hrest⟩ := hshorter rest (Nat.le_refl _)
              exact ⟨_, .single hquote (fun h => absurd h hslash) hrest⟩
          | true =>
              rcases quoted_cases c rest with ⟨body, tail, rfl, hbody⟩ | hbody | ⟨body, rfl, hbody⟩
              · obtain ⟨lexemes, hrest⟩ := hshorter tail (by simp; omega)
                exact ⟨_, .literal hquote hbody hrest⟩
              · exact ⟨_, .openLiteral hquote hbody⟩
              · exact ⟨_, .hiddenEnd hquote hbody⟩

/-- Put a bracket onto the open ones, or close the innermost one with it. -/
def pairStep (opened : List Char) (c : Char) : Option (List Char) :=
  if (closer? c).isSome then some (c :: opened) else Cursor.close? c opened

/-- Pair up the brackets of a word with those that are open before it. -/
def pairUp (opened word : List Char) : Option (List Char) :=
  word.foldlM pairStep opened

theorem pairUp_cons (opened : List Char) (c : Char) (word : List Char) :
    pairUp opened (c :: word) = (pairStep opened c).bind fun opened => pairUp opened word := rfl

theorem pairUp_append (opened before after : List Char) :
    pairUp opened (before ++ after) =
      (pairUp opened before).bind fun opened => pairUp opened after :=
  List.foldlM_append

/-- A bracket that closes opens nothing, and is nothing else. -/
theorem closer_spec {opener closer : Char} (h : closer? opener = some closer) :
    closer? closer = none ∧ isCloser closer = true ∧ isQuote closer = false ∧ closer ≠ '/' := by
  unfold closer? at h
  split at h
  next =>
    obtain rfl := Option.some.inj h
    decide
  next =>
    split at h
    next =>
      obtain rfl := Option.some.inj h
      decide
    next =>
      split at h
      next =>
        obtain rfl := Option.some.inj h
        decide
      next => cases h

theorem pairStep_opener {opener closer : Char} (h : closer? opener = some closer)
    (opened : List Char) : pairStep opened opener = some (opener :: opened) := by
  rw [pairStep, h]
  rfl

theorem pairStep_closer {opener closer : Char} (h : closer? opener = some closer)
    (opened : List Char) : pairStep (opener :: opened) closer = some opened := by
  rw [pairStep, (closer_spec h).1, Cursor.close?, if_pos h]
  rfl

/-- A well nested word leaves the open brackets as they were. -/
theorem WellNested.pairUp_eq {word : List Char} (h : WellNested word) (opened : List Char) :
    pairUp opened word = some opened := by
  induction h generalizing opened with
  | nil => rfl
  | @pair opener closer inner rest h _ _ ihinner ihrest =>
      rw [pairUp_cons, pairStep_opener h, Option.bind_some, pairUp_append, ihinner,
        Option.bind_some, pairUp_cons, pairStep_closer h, Option.bind_some, ihrest]

/-- A word that closes all open brackets: a well nested word before each of the brackets
that close them, and one at the end. -/
inductive Closes : List Char → List Char → Prop where
  | nil {word : List Char} (h : WellNested word) : Closes [] word
  | cons {opener closer : Char} {opened word rest : List Char} (h : closer? opener = some closer)
      (hword : WellNested word) (hrest : Closes opened rest) :
      Closes (opener :: opened) (word ++ closer :: rest)

theorem Closes.pair {opener closer : Char} {opened word rest : List Char}
    (h : closer? opener = some closer) (hword : WellNested word) (hrest : Closes opened rest) :
    Closes opened (opener :: (word ++ closer :: rest)) := by
  cases hrest with
  | nil hrest => exact .nil (.pair h hword hrest)
  | @cons outer close opened next rest houter hnext hrest =>
      have hall : Closes (outer :: opened)
          ((opener :: (word ++ closer :: next)) ++ close :: rest) :=
        .cons houter (.pair h hword hnext) hrest
      simpa using hall

theorem closes_of_pairUp {opened word : List Char} (h : pairUp opened word = some []) :
    Closes opened word := by
  induction word generalizing opened with
  | nil =>
      obtain rfl := Option.some.inj h
      exact .nil .nil
  | cons c word ih =>
      rw [pairUp_cons] at h
      obtain ⟨next, hstep, h⟩ := Option.bind_eq_some_iff.1 h
      unfold pairStep at hstep
      split at hstep
      next hopener =>
        obtain rfl := Option.some.inj hstep
        cases ih h with
        | cons hclose hword hrest => exact .pair hclose hword hrest
      next =>
        cases opened with
        | nil => cases hstep
        | cons opener opened =>
            rw [Cursor.close?, Option.ite_none_right_eq_some] at hstep
            obtain ⟨hclose, hnext⟩ := hstep
            obtain rfl := Option.some.inj hnext
            exact .cons hclose .nil (ih h)

/-- A word is well nested exactly when pairing it up leaves nothing open. -/
theorem pairUp_eq_nil_iff {word : List Char} : pairUp [] word = some [] ↔ WellNested word := by
  constructor
  · intro h
    cases closes_of_pairUp h with
    | nil h => exact h
  · intro h
    exact h.pairUp_eq []

/-- The brackets among the single characters. -/
def brackets (lexemes : List Lexeme) : List Char :=
  lexemes.filterMap Lexeme.bracket?

namespace Cursor

/-- Outside of literals and comments only brackets matter. -/
theorem stepCode_eq {c : Char} (hquote : isQuote c = false) (hslash : c ≠ '/')
    (opened : List Char) :
    stepCode opened c =
      if isBracket c then (pairStep opened c).map fun opened => ⟨.code, opened⟩
      else some ⟨.code, opened⟩ := by
  rw [stepCode, hquote, if_neg Bool.false_ne_true, if_neg hslash, pairStep, isBracket]
  by_cases hopener : (closer? c).isSome = true
  · simp [hopener]
  · by_cases hcloser : isCloser c = true <;> simp [hopener, hcloser]

/-- After a slash that begins no comment the text goes on as in code. -/
theorem run_slash {rest : List Char} (h : ∀ d ∈ rest.head?, d ≠ '/' ∧ d ≠ '*')
    (opened : List Char) :
    (run ⟨.slash, opened⟩ rest).any isComplete = (run ⟨.code, opened⟩ rest).any isComplete := by
  cases rest with
  | nil => cases opened <;> rfl
  | cons d rest =>
      obtain ⟨hslash, hstar⟩ := h d rfl
      have hstep : step ⟨.slash, opened⟩ d = step ⟨.code, opened⟩ d := by
        simp only [step, if_neg hslash, if_neg hstar]
      rw [run_cons, run_cons, hstep]

theorem run_quote {quote : Char} (h : isQuote quote = true) (opened cs : List Char) :
    run ⟨.code, opened⟩ (quote :: cs) = run ⟨.text quote, opened⟩ cs := by
  rw [run_cons, step, stepCode, if_pos h]
  rfl

theorem run_quoted {quote : Char} {body : List Char} (h : Quoted quote body)
    (opened : List Char) :
    run ⟨.text quote, opened⟩ body = some ⟨.text quote, opened⟩ := by
  induction h with
  | nil => rfl
  | plain hquote hslash _ ih =>
      rw [run_cons, step, if_neg hslash, if_neg hquote]
      exact ih
  | hidden _ ih =>
      rw [run_cons, step, if_pos rfl, Option.bind_some, run_cons, step]
      exact ih

theorem run_closingQuote {quote : Char} (h : isQuote quote = true) (opened cs : List Char) :
    run ⟨.text quote, opened⟩ (quote :: cs) = run ⟨.code, opened⟩ cs := by
  have hslash : quote ≠ '\\' := by
    rintro rfl
    exact absurd h (by decide)
  rw [run_cons, step, if_neg hslash, if_pos rfl]
  rfl

theorem run_lineComment {body : List Char} (h : '\n' ∉ body) (opened : List Char) :
    run ⟨.lineComment, opened⟩ body = some ⟨.lineComment, opened⟩ := by
  refine run_of_forall fun c hc => ?_
  have hline : c ≠ '\n' := by
    rintro rfl
    exact h hc
  rw [step, if_neg hline]

/-- Inside a block comment the machine only remembers whether a star stood before. -/
theorem run_blockComment {body : List Char} (h : ¬ ['*', '/'] <:+: body) (opened : List Char) :
    ∃ afterStar,
      run ⟨.blockComment false, opened⟩ body = some ⟨.blockComment afterStar, opened⟩ := by
  have hgeneral : ∀ star, (star = true → body.head? ≠ some '/') → ∃ afterStar,
      run ⟨.blockComment star, opened⟩ body = some ⟨.blockComment afterStar, opened⟩ := by
    induction body with
    | nil => exact fun star _ => ⟨star, rfl⟩
    | cons c body ih =>
        intro star hstar
        have hclose : ¬ (star = true ∧ c = '/') := by
          rintro ⟨hon, rfl⟩
          exact hstar hon rfl
        rw [run_cons, step, if_neg hclose, Option.bind_some]
        refine ih (fun hlater => h (List.infix_cons hlater)) _ ?_
        intro hon hhead
        obtain ⟨tail, rfl⟩ := List.head?_eq_some_iff.1 hhead
        refine h ⟨[], tail, ?_⟩
        rw [eq_of_beq hon]
        rfl
  exact hgeneral false (by simp)

theorem run_closingComment (afterStar : Bool) (opened cs : List Char) :
    run ⟨.blockComment afterStar, opened⟩ ('*' :: '/' :: cs) = run ⟨.code, opened⟩ cs := by
  have hstar : ¬ (afterStar = true ∧ '*' = '/') := by
    rintro ⟨_, h⟩
    exact absurd h (by decide)
  rw [run_cons, step, if_neg hstar, Option.bind_some, run_cons]
  rfl

end Cursor

/-- A part that closes and is no bracket has no say. -/
theorem parts_cons_iff {lexeme : Lexeme} {lexemes : List Lexeme} {opened : List Char}
    (hclosed : lexeme.isClosed = true) (hbracket : lexeme.bracket? = none) :
    ((∀ other ∈ lexeme :: lexemes, other.isClosed = true) ∧
        pairUp opened (brackets (lexeme :: lexemes)) = some []) ↔
      (∀ other ∈ lexemes, other.isClosed = true) ∧
        pairUp opened (brackets lexemes) = some [] := by
  rw [List.forall_mem_cons, brackets, List.filterMap_cons, hbracket, brackets]
  exact and_congr_left fun _ => and_iff_right hclosed

/-- The machine gets through a text exactly when everything closes in its parts and their
brackets pair up. -/
theorem Cut.run_iff {cs : List Char} {lexemes : List Lexeme} (h : Cut cs lexemes)
    (opened : List Char) :
    ((Cursor.mk .code opened).run cs).any Cursor.isComplete = true ↔
      (∀ lexeme ∈ lexemes, lexeme.isClosed = true) ∧
        pairUp opened (brackets lexemes) = some [] := by
  induction h generalizing opened with
  | nil => cases opened <;> simp [Cursor.isComplete, pairUp, brackets]
  | literal hquote hbody _ ih =>
      rw [Cursor.run_quote hquote, Cursor.run_append, Cursor.run_quoted hbody, Option.bind_some,
        Cursor.run_closingQuote hquote, ih, parts_cons_iff rfl rfl]
  | openLiteral hquote hbody =>
      rw [Cursor.run_quote hquote, Cursor.run_quoted hbody]
      simp [Cursor.isComplete, Lexeme.isClosed]
  | hiddenEnd hquote hbody =>
      rw [Cursor.run_quote hquote, Cursor.run_append, Cursor.run_quoted hbody, Option.bind_some,
        Cursor.run_cons, Cursor.step, if_pos rfl]
      simp [Cursor.isComplete, Lexeme.isClosed]
  | lineComment hbody _ ih =>
      have hopen (cs : List Char) : (Cursor.mk .code opened).run ('/' :: '/' :: cs) =
          (Cursor.mk .lineComment opened).run cs := rfl
      have hend (cs : List Char) : (Cursor.mk .lineComment opened).run ('\n' :: cs) =
          (Cursor.mk .code opened).run cs := rfl
      rw [hopen, Cursor.run_append, Cursor.run_lineComment hbody, Option.bind_some, hend, ih,
        parts_cons_iff rfl rfl]
  | lastComment hbody =>
      have hopen (cs : List Char) : (Cursor.mk .code opened).run ('/' :: '/' :: cs) =
          (Cursor.mk .lineComment opened).run cs := rfl
      have hbrackets (body : List Char) : brackets [.lineComment body] = [] := rfl
      rw [hopen, Cursor.run_lineComment hbody, hbrackets]
      cases opened <;> simp [Cursor.isComplete, Lexeme.isClosed, pairUp]
  | blockComment hbody _ ih =>
      have hopen (cs : List Char) : (Cursor.mk .code opened).run ('/' :: '*' :: cs) =
          (Cursor.mk (.blockComment false) opened).run cs := rfl
      obtain ⟨afterStar, hrun⟩ := Cursor.run_blockComment hbody opened
      rw [hopen, Cursor.run_append, hrun, Option.bind_some, Cursor.run_closingComment, ih,
        parts_cons_iff rfl rfl]
  | openComment hbody =>
      have hopen (cs : List Char) : (Cursor.mk .code opened).run ('/' :: '*' :: cs) =
          (Cursor.mk (.blockComment false) opened).run cs := rfl
      obtain ⟨afterStar, hrun⟩ := Cursor.run_blockComment hbody opened
      rw [hopen, hrun]
      simp [Cursor.isComplete, Lexeme.isClosed]
  | @single c rest lexemes hquote hslash _ ih =>
      by_cases hc : c = '/'
      · subst hc
        have hopen : (Cursor.mk .code opened).run ('/' :: rest) =
            (Cursor.mk .slash opened).run rest := rfl
        rw [hopen, Cursor.run_slash (hslash rfl), ih, parts_cons_iff rfl rfl]
      have hstep := Cursor.stepCode_eq hquote hc opened
      rw [Cursor.run_cons, Cursor.step, hstep]
      by_cases hbracket : isBracket c = true
      · have hbrackets : brackets (.single c :: lexemes) = c :: brackets lexemes := by
          rw [brackets, List.filterMap_cons, Lexeme.bracket?, if_pos hbracket]
          rfl
        rw [if_pos hbracket, List.forall_mem_cons, hbrackets, pairUp_cons]
        cases pairStep opened c with
        | none => simp
        | some next =>
            rw [Option.map_some, Option.bind_some, Option.bind_some, ih]
            exact and_congr_left fun _ => (and_iff_right rfl).symm
      · have hnone : (Lexeme.single c).bracket? = none := if_neg hbracket
        rw [if_neg hbracket, Option.bind_some, ih, parts_cons_iff rfl hnone]

end BlockForge.Source
