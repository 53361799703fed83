import BlockForge.Session.Script

/-!
Histories: what a session holds after any steps, and which of them it can forget.

A step does one of four things to a session, and the answer tells which: it makes an
output, it gives the output another stub, it registers a definition, or it leaves
the session alone.  What a session holds can be said from its history alone, and the
steps that left it alone can be taken out of the history.
-/

namespace BlockForge.Session

/-- The steps that leave a session alone, told by their answers: what failed, what
had nothing to make or to show, and what only looks. -/
inductive Idle : Step → Answer → Prop where
  | failed (step : Step) (e : GenerationError) : Idle step (.error e)
  | refused (step : Registry.Step) (e : GenerationError) :
      Idle (.registry step) (.registry (.error e))
  | nothingMade (ws : Workspace) : Idle (.update ws) (.output none)
  | nothingShown (code : String) : Idle (.preview code) (.stub none)
  | output (answer : Answer) : Idle .output answer
  | config (answer : Answer) : Idle .config answer
  | looked (step : Registry.Step) (answer : Answer)
      (h : ∀ schema, step ≠ .register schema) : Idle (.registry step) answer

/-- The definition that a step registers at the top level, if its text is one. -/
def Step.registered? : Step → Option Descriptor
  | .registry (.register schema) => (Descriptor.ofText schema).toOption
  | _ => none

/-- What a step does to a session, with the answer it gives. -/
inductive Transition (s : Session) : Step → Answer → Session → Prop where
  | made {ws : Workspace} {d : Descriptor} (stub : Option String)
      (hcompile : s.compiler.compile ws = .ok d) :
      Transition s (.update ws) (.output (some ⟨d.toText, stub⟩))
        { s with output := some ⟨d.toText, stub⟩ }
  | shown (code stub : String) :
      Transition s (.preview code) (.stub (some stub))
        { s with output := s.output.map fun o => { o with stub := some stub } }
  | registered {schema : String} {d : Descriptor} (hread : Descriptor.ofText schema = .ok d) :
      Transition s (.registry (.register schema)) (.registry (.name d.registeredName))
        { s with registry := s.registry.register d }
  | idle {step : Step} {answer : Answer} (hidle : Idle step answer)
      (hregister : step.registered? = none) : Transition s step answer s

theorem exists_compile_of_outputOf {s : Session} {ws : Workspace} {made : Output}
    (h : (s.outputOf ws).1 = .ok (some made)) :
    ∃ d, s.compiler.compile ws = .ok d ∧ made = ⟨d.toText, made.stub⟩ := by
  unfold outputOf at h
  split at h
  next e _ =>
    dsimp only at h
    split at h <;> cases h
  next d hcompile =>
    dsimp only at h
    rcases hstub : (s.schemaStub d.toText).1 with e | stub
    · rw [hstub] at h
      cases h
    · rw [hstub] at h
      obtain rfl := Option.some.inj (Except.ok.inj h)
      exact ⟨d, hcompile, rfl⟩

theorem transition_update (s : Session) (ws : Workspace) :
    Transition s (.update ws) ((Step.update ws).run s).1 ((Step.update ws).run s).2 := by
  have hsame := s.outputOf_snd ws
  rw [Step.run, update]
  rcases hout : s.outputOf ws with ⟨result, s'⟩
  rw [hout] at hsame
  obtain rfl : s' = s := hsame
  rcases result with e | _ | made
  · exact .idle (.failed _ e) rfl
  · exact .idle (.nothingMade ws) rfl
  · obtain ⟨d, hcompile, hmade⟩ := exists_compile_of_outputOf (congrArg Prod.fst hout)
    rw [hmade]
    exact .made made.stub hcompile

theorem transition_preview (s : Session) (code : String) :
    Transition s (.preview code) ((Step.preview code).run s).1
      ((Step.preview code).run s).2 := by
  rw [Step.run, preview, stubFor_eq]
  rcases Preview.render code s.config.format s.registry with e | shown
  · exact .idle (.failed _ e) rfl
  · rcases hstub : s.stubOf shown with _ | stub
    · simp only [Except.map, hstub]
      exact .idle (.nothingShown code) rfl
    · simp only [Except.map, hstub]
      exact .shown code stub

theorem transition_register (s : Session) (schema : String) :
    Transition s (.registry (.register schema))
      ((Step.registry (.register schema)).run s).1
      ((Step.registry (.register schema)).run s).2 := by
  rw [Step.run, Registry.Step.run, Registry.registerText]
  cases hread : Descriptor.ofText schema with
  | error e =>
      refine .idle (.refused _ e) ?_
      rw [Step.registered?, hread]
      rfl
  | ok d => exact .registered hread

/-- Every step makes one of the four transitions. -/
theorem Step.transition (step : Step) (s : Session) :
    Transition s step (step.run s).1 (step.run s).2 := by
  cases step with
  | update ws => exact transition_update s ws
  | preview code => exact transition_preview s code
  | output => exact .idle (.output _) rfl
  | config => exact .idle (.config _) rfl
  | registry step =>
      cases step with
      | register schema => exact transition_register s schema
      | preview code format =>
          have hsame := Registry.passText_snd s.registry code format
          rw [Step.run, Registry.Step.run]
          rcases hpass : s.registry.passText code format with ⟨answer, registry⟩
          rw [hpass] at hsame
          obtain rfl : registry = s.registry := hsame
          exact .idle (.looked _ _ (by simp)) rfl
      | _ => exact .idle (.looked _ _ (by simp)) rfl

/-- A step whose answer tells that it left the session alone did so. -/
theorem Transition.eq_of_idle {s s' : Session} {step : Step} {answer : Answer}
    (h : Transition s step answer s') (hidle : Idle step answer) : s' = s := by
  cases h with
  | made stub hcompile => cases hidle
  | shown code stub => cases hidle
  | registered hread =>
      cases hidle with
      | looked _ _ hlooked => exact absurd rfl (hlooked _)
  | idle => rfl

/-- Steps with their answers, the first one first. -/
abbrev History := List (Step × Answer)

namespace History

/-- No update in the history made an output. -/
def MakesNothing (history : History) : Prop :=
  ∀ ws made, (Step.update ws, Answer.output (some made)) ∉ history

/-- The stub that a preview answered. -/
def shown? : Step × Answer → Option String
  | (.preview _, .stub stub) => stub
  | _ => none

/-- The latest stub that a preview of the history answered. -/
def lastShown? (history : History) : Option String :=
  (history.filterMap shown?).getLast?

theorem lastShown_concat (history : History) (entry : Step × Answer) :
    (history ++ [entry]).lastShown? = (shown? entry).or history.lastShown? := by
  unfold lastShown?
  rw [List.filterMap_append, List.getLast?_append]
  cases hentry : shown? entry with
  | none => simp [hentry]
  | some stub => simp [hentry]

/-- What is left of the updates and previews of a history: nothing as long as no
update made an output, and then the schema of the last update that did, with the
latest stub since. -/
structure Leaves (c : Compiler) (history : History) (output : Option Output) : Prop where
  none_iff : output = none ↔ history.MakesNothing
  last : ∀ out, output = some out → ∃ before ws made after d,
    history = before ++ (.update ws, .output (some made)) :: after ∧
      MakesNothing after ∧ c.compile ws = .ok d ∧ made.schema = d.toText ∧
      out = ⟨d.toText, (lastShown? after).or made.stub⟩

theorem makesNothing_concat {history : History} {entry : Step × Answer}
    (hentry : ∀ ws made, entry ≠ (.update ws, .output (some made))) :
    MakesNothing (history ++ [entry]) ↔ history.MakesNothing := by
  unfold MakesNothing
  refine forall_congr' fun ws => forall_congr' fun made => not_congr ?_
  rw [List.mem_append, List.mem_singleton]
  exact or_iff_left (Ne.symm (hentry ws made))

theorem leaves_nil (c : Compiler) : Leaves c [] none := by
  constructor
  · exact iff_of_true rfl fun _ _ => List.not_mem_nil
  · intro out hout
    cases hout

theorem Leaves.made {c : Compiler} {history : History} {ws : Workspace} {d : Descriptor}
    (stub : Option String) (hcompile : c.compile ws = .ok d) :
    Leaves c (history ++ [(.update ws, .output (some ⟨d.toText, stub⟩))])
      (some ⟨d.toText, stub⟩) where
  none_iff := by
    refine iff_of_false nofun ?_
    intro hnothing
    exact hnothing ws ⟨d.toText, stub⟩ (List.mem_append_right _ List.mem_cons_self)
  last := by
    intro out hout
    obtain rfl := Option.some.inj hout
    exact ⟨history, ws, _, [], d, rfl, fun _ _ => List.not_mem_nil, hcompile, rfl, rfl⟩

/-- An entry other than an update that made an output can only change the stub. -/
theorem Leaves.concat {c : Compiler} {history : History} {output : Option Output}
    (h : Leaves c history output) {entry : Step × Answer}
    (hentry : ∀ ws made, entry ≠ (.update ws, .output (some made))) :
    Leaves c (history ++ [entry])
      (output.map fun out => { out with stub := (shown? entry).or out.stub }) where
  none_iff := by
    rw [Option.map_eq_none_iff, makesNothing_concat hentry]
    exact h.none_iff
  last := by
    intro out hout
    obtain ⟨old, hold, rfl⟩ := Option.map_eq_some_iff.1 hout
    obtain ⟨before, ws, made, after, d, hhistory, hafter, hcompile, hschema, rfl⟩ :=
      h.last old hold
    refine ⟨before, ws, made, after ++ [entry], d, ?_, ?_, hcompile, hschema, ?_⟩
    · rw [hhistory, List.append_assoc, List.cons_append]
    · exact (makesNothing_concat hentry).2 hafter
    · rw [lastShown_concat, Option.or_assoc]

theorem Leaves.concat_of_shown_eq_none {c : Compiler} {history : History}
    {output : Option Output} (h : Leaves c history output) {entry : Step × Answer}
    (hentry : ∀ ws made, entry ≠ (.update ws, .output (some made)))
    (hshown : shown? entry = none) : Leaves c (history ++ [entry]) output := by
  have hconcat := h.concat hentry
  rw [hshown] at hconcat
  cases output with
  | none => exact hconcat
  | some out => exact hconcat

end History

/-- The registry of the definitions that some steps register at the top level. -/
def registered (steps : List Step) : Registry :=
  (steps.filterMap Step.registered?).foldl Registry.register {}

theorem registered_concat (steps : List Step) (step : Step) :
    registered (steps ++ [step]) =
      step.registered?.elim (registered steps) (registered steps).register := by
  unfold registered
  rw [List.filterMap_append, List.foldl_append]
  cases hstep : step.registered? with
  | none => simp [hstep]
  | some d => simp [hstep]

theorem Idle.ne_made {step : Step} {answer : Answer} (h : Idle step answer)
    (ws : Workspace) (made : Output) : (step, answer) ≠ (.update ws, .output (some made)) := by
  rintro heq
  cases heq
  cases h

theorem Idle.shown_eq_none {step : Step} {answer : Answer} (h : Idle step answer) :
    History.shown? (step, answer) = none := by
  cases h with
  | failed step e => cases step <;> rfl
  | _ => rfl

/-- What a session holds after a history: its configuration, the definitions that
were registered at the top level, and what the updates and previews left. -/
structure Holds (config : Config) (history : History) (s : Session) : Prop where
  config_eq : s.config = config
  registry_eq : s.registry = registered (history.map Prod.fst)
  output : history.Leaves s.compiler s.output

/-- One step keeps what a session holds in accordance with its history. -/
theorem Holds.step {config : Config} {history : History} {s s' : Session} {step : Step}
    {answer : Answer} (h : Holds config history s) (ht : Transition s step answer s') :
    Holds config (history ++ [(step, answer)]) s' := by
  have hregistry : s'.registry = registered ((history ++ [(step, answer)]).map Prod.fst) := by
    rw [List.map_append, List.map_singleton, registered_concat, ← h.registry_eq]
    cases ht with
    | made stub hcompile => rfl
    | shown code stub => rfl
    | registered hread =>
        rw [Step.registered?, hread]
        rfl
    | idle hidle hregister =>
        rw [hregister]
        rfl
  have hconfig : s'.config = config := by
    rw [← h.config_eq]
    cases ht <;> rfl
  refine ⟨hconfig, hregistry, ?_⟩
  cases ht with
  | made stub hcompile => exact History.Leaves.made stub hcompile
  | shown code stub => exact h.output.concat fun _ _ => nofun
  | registered hread => exact h.output.concat_of_shown_eq_none (fun _ _ => nofun) rfl
  | idle hidle hregister => exact h.output.concat_of_shown_eq_none hidle.ne_made hidle.shown_eq_none

/-- Any steps keep what a session holds in accordance with its history. -/
theorem Holds.steps {config : Config} {history : History} {s : Session}
    (h : Holds config history s) (steps : List Step) :
    Holds config (history ++ steps.zip (Step.runAll steps s).1) (Step.runAll steps s).2 := by
  induction steps generalizing history s with
  | nil =>
      rw [List.zip_nil_left, List.append_nil]
      exact h
  | cons step steps ih =>
      have hstep := ih (h.step (step.transition s))
      rw [List.append_assoc, List.singleton_append] at hstep
      exact hstep

/-- The history without some of the steps that left the session alone. -/
inductive Deletion : History → History → Prop where
  | nil : Deletion [] []
  | keep {history kept : History} (entry : Step × Answer) (h : Deletion history kept) :
      Deletion (entry :: history) (entry :: kept)
  | drop {history kept : History} {step : Step} {answer : Answer} (hidle : Idle step answer)
      (h : Deletion history kept) : Deletion ((step, answer) :: history) kept

theorem runAll_cons (step : Step) (steps : List Step) (s : Session) :
    Step.runAll (step :: steps) s = ((step.run s).1 :: (Step.runAll steps (step.run s).2).1,
      (Step.runAll steps (step.run s).2).2) :=
  rfl

/-- The steps that are kept give the answers they gave, and the same session. -/
theorem runAll_of_deletion {steps : List Step} {s : Session} {kept : History}
    (h : Deletion (steps.zip (Step.runAll steps s).1) kept) :
    Step.runAll (kept.map Prod.fst) s = (kept.map Prod.snd, (Step.runAll steps s).2) := by
  induction steps generalizing s kept with
  | nil =>
      cases h
      rfl
  | cons step steps ih =>
      rw [runAll_cons, List.zip_cons_cons] at h
      rw [runAll_cons]
      cases h with
      | keep entry h => rw [List.map_cons, List.map_cons, runAll_cons, ih h]
      | drop hidle h =>
          have hsame := (step.transition s).eq_of_idle hidle
          rw [hsame] at h ⊢
          exact ih h

/-- The session that a configuration starts. -/
def start (config : Config) : Session :=
  { config := config }

theorem holds_start (config : Config) : Holds config [] (start config) :=
  ⟨rfl, rfl, History.leaves_nil _⟩

/-- A session is what its history says, and the steps that left it alone can be
taken out of the history in any selection. -/
theorem history_law (config : Config) (steps : List Step) :
    Holds config (steps.zip (Step.runAll steps (start config)).1)
        (Step.runAll steps (start config)).2 ∧
      ∀ kept, Deletion (steps.zip (Step.runAll steps (start config)).1) kept →
        Step.runAll (kept.map Prod.fst) (start config) =
          (kept.map Prod.snd, (Step.runAll steps (start config)).2) := by
  constructor
  · exact (holds_start config).steps steps
  · intro kept hkept
    exact runAll_of_deletion hkept

end BlockForge.Session
