import BlockForge.Proofs.Update
import BlockForge.Session.Script

/-!
Single steps of a session.

An update ends in one of three ways and a preview in one of two (`update_cases`,
`preview_cases`), and what comes of several steps follows from the first one and the others
(`succeeds_cons_iff`, `runAll_cons_snd`).
-/

namespace BlockForge.Session

/-- No step of a session fails. -/
def Succeeds (steps : List Step) (s : Session) : Prop :=
  ∀ e, Answer.error e ∉ (Step.runAll steps s).1

/-- An update has nothing to make, fails, or makes the output of the session. -/
theorem update_cases (s : Session) (ws : Workspace) :
    (NothingToMake ws ∧ s.update ws = (.ok none, s)) ∨
      ¬ NothingToMake ws ∧ ((∃ e, s.update ws = (.error e, s)) ∨
        ∃ output, s.update ws = (.ok (some output), { s with output := some output })) := by
  cases hcompile : s.compiler.compile ws with
  | error e =>
      rcases outputOf_of_error hcompile with ⟨hout, hmake⟩ | ⟨hout, hmake⟩
      · refine .inl ⟨hmake, ?_⟩
        rw [update, hout]
      · refine .inr ⟨hmake, .inl ⟨e, ?_⟩⟩
        rw [update, hout]
  | ok descriptor =>
      have hmake : ¬ NothingToMake ws := by
        rw [nothingToMake_iff]
        intro hnone
        obtain ⟨e, he⟩ := Compiler.compile_of_noRoot (c := s.compiler) hnone
        rw [hcompile] at he
        cases he
      refine .inr ⟨hmake, ?_⟩
      have hsame := s.schemaStub_snd descriptor.toText
      rcases hstub : s.schemaStub descriptor.toText with ⟨e | stub, s'⟩
      · rw [hstub] at hsame
        refine .inl ⟨e, ?_⟩
        rw [update, outputOf, hcompile]
        dsimp only
        rw [hstub, ← hsame]
        rfl
      · rw [hstub] at hsame
        refine .inr ⟨⟨descriptor.toText, stub⟩, ?_⟩
        rw [update, outputOf, hcompile]
        dsimp only
        rw [hstub, ← hsame]
        rfl

/-- A preview fails, or gives the output of the session the stub that it shows, if any. -/
theorem preview_cases (s : Session) (code : String) :
    (∃ e, s.preview code = (.error e, s)) ∨
      ∃ shown, s.preview code = (.ok shown,
        { s with
          output := s.output.map fun output => { output with stub := shown.or output.stub } }) := by
  have hkept : s = { s with output := s.output.map (fun output => output) } := by
    rw [Option.map_id']
  rw [preview, stubFor_eq]
  rcases (Preview.render code s.config.format s.registry).map s.stubOf with e | _ | stub
  · exact .inl ⟨e, rfl⟩
  · exact .inr ⟨none, congrArg (Prod.mk _) hkept⟩
  · exact .inr ⟨some stub, rfl⟩

/-- Steps succeed if the first one does and the others do on the session after it. -/
theorem succeeds_cons_iff {step : Step} {rest : List Step} {s s' : Session}
    {answer : Answer} (h : step.run s = (answer, s')) :
    Succeeds (step :: rest) s ↔ (∀ e, answer ≠ .error e) ∧ Succeeds rest s' := by
  unfold Succeeds
  rw [← forall_and]
  refine forall_congr' fun e => ?_
  rw [Step.runAll, h, List.mem_cons, not_or, Ne, eq_comm]

theorem not_succeeds_of_error {step : Step} {rest : List Step} {s s' : Session}
    {e : GenerationError} (h : step.run s = (.error e, s')) : ¬ Succeeds (step :: rest) s :=
  fun hsteps => ((succeeds_cons_iff h).1 hsteps).1 e rfl

theorem runAll_cons_snd {step : Step} {rest : List Step} {s s' : Session}
    {answer : Answer} (h : step.run s = (answer, s')) :
    (Step.runAll (step :: rest) s).2 = (Step.runAll rest s').2 := by
  rw [Step.runAll, h]

theorem run_update_ok {s s' : Session} {ws : Workspace} {made : Option Output}
    (h : s.update ws = (.ok made, s')) :
    (Step.update ws).run s = (.output made, s') := by
  rw [Step.run, h]

theorem run_update_error {s s' : Session} {ws : Workspace} {e : GenerationError}
    (h : s.update ws = (.error e, s')) : (Step.update ws).run s = (.error e, s') := by
  rw [Step.run, h]

theorem run_preview_ok {s s' : Session} {code : String} {shown : Option String}
    (h : s.preview code = (.ok shown, s')) :
    (Step.preview code).run s = (.stub shown, s') := by
  rw [Step.run, h]

theorem run_preview_error {s s' : Session} {code : String} {e : GenerationError}
    (h : s.preview code = (.error e, s')) :
    (Step.preview code).run s = (.error e, s') := by
  rw [Step.run, h]

end BlockForge.Session
