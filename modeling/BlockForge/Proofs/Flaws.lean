import BlockForge.Proofs.Lexemes

/-!
Flaws are found exactly where they are, and as early as possible.

The one-pass check stops at a bracket exactly where the machine does (`Reported`), and
there nothing that begins in the same way is accepted.  What else may be missing at the
end of a text can be written behind it: an invariant of the machine (`Cursor.Sound`) says
that there is always something that closes the innermost of what is open.
-/

namespace BlockForge.Source

/-- How a report about a text fits the machine: it gets through the text, or it stops at
the bracket that is refused. -/
inductive Reported (cursor : Cursor) (pos : Nat) : List Char → Option Flaw → Prop where
  | passed {cs : List Char} {result : Option Flaw} (hrun : (cursor.run cs).isSome = true)
      (hresult : ∀ c position, result ≠ some (.unexpected c position)) :
      Reported cursor pos cs result
  | refused {before after : List Char} {c : Char} (hrun : cursor.run (before ++ [c]) = none) :
      Reported cursor pos (before ++ c :: after) (some (.unexpected c (pos + before.length)))

namespace Reported

variable {cursor next : Cursor} {pos : Nat} {cs : List Char} {c : Char} {result : Option Flaw}

theorem cons (h : Reported next (pos + 1) cs result) (hstep : cursor.step c = some next) :
    Reported cursor pos (c :: cs) result := by
  cases h with
  | passed hrun hresult =>
      refine .passed ?_ hresult
      rw [Cursor.run_cons, hstep]
      exact hrun
  | @refused before after refusedChar hrun =>
      have hfirst : cursor.run ((c :: before) ++ [refusedChar]) = none := by
        rw [List.cons_append, Cursor.run_cons, hstep]
        exact hrun
      have hposition : pos + 1 + before.length = pos + (c :: before).length := by
        rw [List.length_cons]
        omega
      rw [hposition]
      exact .refused hfirst

/-- A character that begins no comment after a slash is read as in code. -/
theorem slash {opened : List Char} (h : Reported ⟨.code, opened⟩ pos (c :: cs) result)
    (hslash : c ≠ '/') (hstar : c ≠ '*') : Reported ⟨.slash, opened⟩ pos (c :: cs) result := by
  have hstep : Cursor.step ⟨.slash, opened⟩ c = Cursor.step ⟨.code, opened⟩ c := by
    simp only [Cursor.step, if_neg hslash, if_neg hstar]
  generalize hall : c :: cs = all at h
  cases h with
  | passed hrun hresult =>
      subst hall
      refine .passed ?_ hresult
      rw [Cursor.run_cons] at hrun ⊢
      rw [hstep]
      exact hrun
  | @refused before after refusedChar hrun =>
      refine .refused ?_
      cases before with
      | nil =>
          obtain ⟨rfl, -⟩ := List.cons.inj hall
          rw [List.nil_append, Cursor.run_cons] at hrun ⊢
          rw [hstep]
          exact hrun
      | cons first before =>
          obtain ⟨rfl, -⟩ := List.cons.inj hall
          rw [List.cons_append, Cursor.run_cons] at hrun ⊢
          rw [hstep]
          exact hrun

/-- Only a bracket that is refused is reported by a machine that stopped. -/
theorem run_isSome (h : Reported cursor pos cs result)
    (hresult : ∀ c position, result ≠ some (.unexpected c position)) :
    (cursor.run cs).isSome = true := by
  cases h with
  | passed hrun _ => exact hrun
  | refused => exact absurd rfl (hresult _ _)

/-- A bracket that the machine stops at. -/
theorem of_step_eq_none (hstep : cursor.step c = none) :
    Reported cursor pos (c :: cs) (some (.unexpected c pos)) := by
  have hrun : cursor.run ([] ++ [c]) = none := by
    rw [List.nil_append, Cursor.run_cons, hstep]
    rfl
  exact .refused hrun

end Reported

/-- The one-pass check reports what the machine does. -/
theorem reported_flawFrom (mode : Mode) (stack : List (Char × Nat)) (pos : Nat)
    (cs : List Char) :
    Reported ⟨mode.context, stack.map Prod.fst⟩ pos cs (flawFrom mode stack pos cs) := by
  -- The text ends in cases 1 to 5, and a bracket is refused in cases 20 and 21.  In the
  -- others a character is read, or two of them where a comment begins.
  fun_induction flawFrom mode stack pos cs with
  | case1 | case2 | case3 | case4 | case5 => exact .passed rfl (by simp)
  | case6 _ _ _ _ _ ih | case7 _ _ _ _ _ _ ih | case8 _ _ _ _ _ _ _ _ ih
  | case9 _ _ _ _ _ _ ih =>
      exact ih.cons (by simp [Cursor.step, Mode.context, *])
  | case10 _ _ c _ ih =>
      exact ih.cons (by by_cases hend : c = '\n' <;> simp [Cursor.step, Mode.context, hend])
  | case11 _ _ _ _ _ _ h ih => exact ih.cons (by simp [Cursor.step, Mode.context, h])
  | case12 _ _ _ _ _ _ h ih => exact ih.cons (by rw [Mode.context, Cursor.step, if_neg h]; rfl)
  | case14 stack pos => cases stack <;> exact .passed rfl (by simp [flawFrom])
  | case15 _ _ _ _ ih | case16 _ _ _ _ _ ih => exact .cons (.cons ih rfl) rfl
  | case17 _ _ _ _ hslash hstar _ ih => exact .cons (ih.slash hslash hstar) rfl
  | case13 _ _ _ _ _ ih | case18 _ _ _ _ _ _ _ ih | case19 _ _ _ _ _ _ _ _ _ _ _ ih
  | case22 _ _ _ _ _ _ _ _ ih =>
      exact ih.cons (by simp [Cursor.step, Cursor.stepCode, Cursor.close?, Mode.context, *])
  | case20 | case21 =>
      exact .of_step_eq_none
        (by simp [Cursor.step, Cursor.stepCode, Cursor.close?, Mode.context, *])

namespace Cursor

/-- What holds of every cursor that a text leads to: the open brackets have brackets that
close them, and a literal began with a quote. -/
structure Sound (cursor : Cursor) : Prop where
  opened : ∀ bracket ∈ cursor.opened, (closer? bracket).isSome = true
  quoted : ∀ quote, cursor.context = .text quote ∨ cursor.context = .escape quote →
    isQuote quote = true

theorem Sound.stepCode {opened : List Char} {c : Char} {b : Cursor}
    (h : ∀ bracket ∈ opened, (closer? bracket).isSome = true)
    (hstep : Cursor.stepCode opened c = some b) : b.Sound := by
  unfold Cursor.stepCode at hstep
  split_ifs at hstep with hquote hslash hopener hcloser
  · obtain rfl := Option.some.inj hstep
    refine ⟨h, ?_⟩
    rintro quote (hcontext | hcontext)
    · obtain rfl := Context.text.inj hcontext
      exact hquote
    · cases hcontext
  · obtain rfl := Option.some.inj hstep
    exact ⟨h, by simp⟩
  · obtain rfl := Option.some.inj hstep
    exact ⟨List.forall_mem_cons.2 ⟨hopener, h⟩, by simp⟩
  · obtain ⟨rest, hclose, rfl⟩ := Option.map_eq_some_iff.1 hstep
    cases opened with
    | nil => cases hclose
    | cons bracket opened =>
        rw [close?, Option.ite_none_right_eq_some] at hclose
        obtain rfl := Option.some.inj hclose.2
        exact ⟨(List.forall_mem_cons.1 h).2, by simp⟩
  · obtain rfl := Option.some.inj hstep
    exact ⟨h, by simp⟩

theorem Sound.step {a b : Cursor} {c : Char} (h : a.Sound) (hstep : a.step c = some b) :
    b.Sound := by
  obtain ⟨context, opened⟩ := a
  cases context with
  | code => exact .stepCode h.opened hstep
  | slash =>
      simp only [Cursor.step] at hstep
      split_ifs at hstep
      · obtain rfl := Option.some.inj hstep
        exact ⟨h.opened, by simp⟩
      · obtain rfl := Option.some.inj hstep
        exact ⟨h.opened, by simp⟩
      · exact .stepCode h.opened hstep
  | text quote =>
      obtain rfl := Option.some.inj hstep
      have hquote := h.quoted quote (.inl rfl)
      refine ⟨h.opened, ?_⟩
      dsimp only
      split_ifs <;> simp [hquote]
  | escape quote =>
      obtain rfl := Option.some.inj hstep
      have hquote := h.quoted quote (.inr rfl)
      exact ⟨h.opened, by simp [hquote]⟩
  | lineComment | blockComment =>
      obtain rfl := Option.some.inj hstep
      refine ⟨h.opened, ?_⟩
      dsimp only
      split_ifs <;> simp

theorem Sound.run {a b : Cursor} {cs : List Char} (h : a.Sound) (hrun : a.run cs = some b) :
    b.Sound := by
  induction cs generalizing a with
  | nil =>
      obtain rfl := Option.some.inj hrun
      exact h
  | cons c cs ih =>
      obtain ⟨next, hstep, hrun⟩ := Option.bind_eq_some_iff.1 hrun
      exact ih (h.step hstep) hrun

/-- Every literal and comment can be closed. -/
theorem Sound.exists_run_code {cursor : Cursor} (h : cursor.Sound) :
    ∃ cs, cursor.run cs = some ⟨.code, cursor.opened⟩ := by
  obtain ⟨context, opened⟩ := cursor
  cases context with
  | code => exact ⟨[], rfl⟩
  | slash => exact ⟨[' '], rfl⟩
  | text quote => exact ⟨[quote], run_closingQuote (h.quoted quote (.inl rfl)) opened []⟩
  | escape quote =>
      exact ⟨[' ', quote], run_closingQuote (h.quoted quote (.inr rfl)) opened []⟩
  | lineComment => exact ⟨['\n'], rfl⟩
  | blockComment afterStar => exact ⟨['*', '/'], run_closingComment afterStar opened []⟩

/-- Open brackets can be closed from the inside to the outside. -/
theorem run_closers {opened : List Char}
    (h : ∀ bracket ∈ opened, (closer? bracket).isSome = true) :
    run ⟨.code, opened⟩ (opened.filterMap closer?) = some ⟨.code, []⟩ := by
  induction opened with
  | nil => rfl
  | cons bracket opened ih =>
      obtain ⟨hbracket, hopened⟩ := List.forall_mem_cons.1 h
      obtain ⟨closer, hcloser⟩ := Option.isSome_iff_exists.1 hbracket
      obtain ⟨-, hcloses, hquote, hslash⟩ := closer_spec hcloser
      have hstep : step ⟨.code, bracket :: opened⟩ closer = some ⟨.code, opened⟩ := by
        rw [step, stepCode_eq hquote hslash, isBracket, hcloses, Bool.or_true, if_pos rfl,
          pairStep_closer hcloser]
        rfl
      rw [List.filterMap_cons_some hcloser, run_cons, hstep, Option.bind_some]
      exact ih hopened

/-- Where the machine has not stopped, the text can be completed. -/
theorem Sound.exists_complete {cursor : Cursor} (h : cursor.Sound) :
    ∃ cs, (cursor.run cs).any isComplete = true := by
  obtain ⟨cs, hcs⟩ := h.exists_run_code
  refine ⟨cs ++ cursor.opened.filterMap closer?, ?_⟩
  rw [run_append, hcs, Option.bind_some, run_closers h.opened]
  rfl

end Cursor

/-- A text is accepted exactly when, in its parts, every literal and block comment closes
and the brackets are well nested.  A bracket is refused only where no text that begins in
the same way is accepted, and a text with any other flaw can be completed. -/
theorem flaw?_exact_and_early (text : String) :
    (∃ lexemes, Cut text.toList lexemes) ∧
      (∀ lexemes, Cut text.toList lexemes → (flaw? text = none ↔
        (∀ lexeme ∈ lexemes, lexeme.isClosed = true) ∧ WellNested (brackets lexemes))) ∧
      (∀ c position, flaw? text = some (.unexpected c position) →
        text.toList[position]? = some c ∧ ∀ other : String,
          other.toList.take (position + 1) = text.toList.take (position + 1) →
            flaw? other ≠ none) ∧
      ∀ flaw, flaw? text = some flaw → (∀ c position, flaw ≠ .unexpected c position) →
        ∃ more, flaw? (text ++ more) = none := by
  have hreported : Reported ⟨.code, []⟩ 0 text.toList (flaw? text) :=
    reported_flawFrom .code [] 0 text.toList
  refine ⟨exists_cut _, ?_, ?_, ?_⟩
  · intro lexemes hcut
    rw [flaw?_eq_none_iff, hcut.run_iff, pairUp_eq_nil_iff]
  · intro c position hflaw
    rw [hflaw] at hreported
    generalize text.toList = chars at hreported ⊢
    cases hreported with
    | passed _ hresult => exact absurd rfl (hresult c position)
    | @refused before after _ hrun =>
        have hlength : (before ++ [c]).length = 0 + before.length + 1 := by simp
        refine ⟨by simp, ?_⟩
        intro other hother hnone
        rw [List.append_cons, ← hlength, List.take_left] at hother
        rw [flaw?_eq_none_iff, ← List.take_append_drop (before ++ [c]).length other.toList, hother,
          Cursor.run_append, hrun] at hnone
        cases hnone
  · intro flaw hflaw hother
    obtain ⟨cursor, hrun⟩ := Option.isSome_iff_exists.1
      (hreported.run_isSome fun c position h => hother c position (by simpa [hflaw] using h))
    have hsound : cursor.Sound := .run ⟨by simp, by simp⟩ hrun
    obtain ⟨cs, hcs⟩ := hsound.exists_complete
    refine ⟨String.ofList cs, ?_⟩
    rw [flaw?_eq_none_iff, String.toList_append, String.toList_ofList, Cursor.run_append, hrun]
    exact hcs

/-- A bracket is refused in a text with quotes in comments and a comment in quotes, and
`f(/*/` can be completed. -/
theorem flaw?_exact_and_early_quotesInComments :
    flaw? "f(\"/*\\\"\" /*/ ' */ ]" = some (.unexpected ']' 18) ∧
      (∀ other : String, other.toList.take 19 = "f(\"/*\\\"\" /*/ ' */ ]".toList.take 19 →
        flaw? other ≠ none) ∧
      flaw? "f(/*/" = some (.openComment 2) ∧ ∃ more, flaw? ("f(/*/" ++ more) = none := by
  have hrefused : flaw? "f(\"/*\\\"\" /*/ ' */ ]" = some (.unexpected ']' 18) := by
    decide +kernel
  have hopen : flaw? "f(/*/" = some (.openComment 2) := by
    decide +kernel
  obtain ⟨-, -, hearly, -⟩ := flaw?_exact_and_early "f(\"/*\\\"\" /*/ ' */ ]"
  obtain ⟨-, -, -, hmore⟩ := flaw?_exact_and_early "f(/*/"
  exact ⟨hrefused, (hearly ']' 18 hrefused).2, hopen, hmore _ hopen nofun⟩

end BlockForge.Source
