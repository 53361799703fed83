import BlockForge.Proofs.Isolation
import BlockForge.Registry.Script
import Mathlib.Data.List.Induction

/-!
Scopes of a registry are lexical.

What a question to a registry is answered can be said from the definitions that were
registered before it, without those that were registered in scopes which are closed by then
(`Lexical`): the last one under a name is in force, and a name has changed when the
one in force is not equal to the one that was in force when the innermost open scope was
entered.  So steps that register nothing where they stand, which previews and whole scopes
are, can be taken out of a run without a change to any other answer.

Definitions are compared as the registry compares them: one that holds a number that is no
number is not equal to itself.
-/

namespace BlockForge.Registry

/-- The definition that a step registers where it stands.  What a scope registers is gone
behind it. -/
def Step.registered? : Step → Option Descriptor
  | .register schema => (Descriptor.ofText schema).toOption
  | _ => none

/-- The definition in force for a name after some were registered: the last one of that
name. -/
def inForce (definitions : List Descriptor) (name : String) : Option Descriptor :=
  (definitions.filter fun d => d.registeredName = name).getLast?

/-- The registry of some definitions. -/
def ofDefinitions (definitions : List Descriptor) : Registry :=
  definitions.foldl register {}

mutual

/-- The answer of a step, told by what was registered before it.  The first list holds what
was there when the innermost open scope was entered, and the second one everything so far;
neither holds what was registered in a scope that is closed by then. -/
inductive Lexical : List Descriptor → List Descriptor → Step → Answer → Prop
  | registered {entered earlier : List Descriptor} {schema : String} {d : Descriptor}
      (hread : Descriptor.ofText schema = .ok d) :
      Lexical entered earlier (.register schema) (.name d.registeredName)
  | refused {entered earlier : List Descriptor} {schema : String} {e : GenerationError}
      (hread : Descriptor.ofText schema = .error e) :
      Lexical entered earlier (.register schema) (.error e)
  | get {entered earlier : List Descriptor} (name : String) :
      Lexical entered earlier (.get name) (.definition (inForce earlier name))
  | contains {entered earlier : List Descriptor} (name : String) :
      Lexical entered earlier (.contains name) (.truth (inForce earlier name).isSome)
  | size {entered earlier : List Descriptor} {names : List String} (hnodup : names.Nodup)
      (hmem : ∀ name, name ∈ names ↔ (inForce earlier name).isSome) :
      Lexical entered earlier .size (.size names.length)
  | preview {entered earlier : List Descriptor} (code format : String) :
      Lexical entered earlier (.preview code format)
        ((ofDefinitions earlier).previewText code format)
  | changed {entered earlier : List Descriptor} {names : List String}
      (hascending : names.Pairwise (· < ·))
      (hmem : ∀ name, name ∈ names ↔ ∃ d, inForce earlier name = some d ∧
        (inForce entered name == some d) = false) :
      Lexical entered earlier .changed (.names names)
  | scope {entered earlier : List Descriptor} {steps : List Step} {answers : List Answer}
      (h : LexicalAll earlier earlier steps answers) :
      Lexical entered earlier (.scope steps) (.scope answers)

/-- The answers of steps, one for each; a step adds what it registers where it stands to
what the steps behind it find. -/
inductive LexicalAll : List Descriptor → List Descriptor → List Step → List Answer → Prop
  | nil {entered earlier : List Descriptor} : LexicalAll entered earlier [] []
  | cons {entered earlier : List Descriptor} {step : Step} {answer : Answer}
      {steps : List Step} {answers : List Answer} (h : Lexical entered earlier step answer)
      (hrest : LexicalAll entered (earlier ++ step.registered?.toList) steps answers) :
      LexicalAll entered earlier (step :: steps) (answer :: answers)

end

theorem inForce_concat (definitions : List Descriptor) (d : Descriptor) (name : String) :
    inForce (definitions ++ [d]) name =
      if name = d.registeredName then some d else inForce definitions name := by
  rw [inForce, List.filter_append, List.getLast?_append]
  by_cases hname : name = d.registeredName
  · simp [hname]
  · simp [hname, Ne.symm hname, inForce]

theorem ofDefinitions_concat (definitions : List Descriptor) (d : Descriptor) :
    ofDefinitions (definitions ++ [d]) = (ofDefinitions definitions).register d := by
  rw [ofDefinitions, List.foldl_append]
  rfl

/-- A registry answers with the definitions in force. -/
theorem get?_ofDefinitions (definitions : List Descriptor) (name : String) :
    (ofDefinitions definitions).get? name = inForce definitions name := by
  induction definitions using List.reverseRecOn with
  | nil => rfl
  | append_singleton definitions d ih =>
      rw [ofDefinitions_concat, get?_register, ih, inForce_concat]

theorem runAll_cons (saved : Registry) (step : Step) (steps : List Step) (r : Registry) :
    Step.runAll saved (step :: steps) r =
      ((step.run saved r).1 :: (Step.runAll saved steps (step.run saved r).2).1,
        (Step.runAll saved steps (step.run saved r).2).2) := by
  rw [Step.runAll]

/-- One step adds to a registry the definition that it registers where it stands. -/
theorem run_snd (saved : Registry) (step : Step) (r : Registry) :
    (step.run saved r).2 = step.registered?.elim r r.register := by
  cases step with
  | register schema =>
      rw [Step.run, registerText, Step.registered?]
      rcases Descriptor.ofText schema with e | d <;> rfl
  | preview code format =>
      rw [Step.run]
      exact passText_snd r code format
  | scope steps =>
      rw [Step.run]
      exact r.restored_isolate _
  | _ => rfl

theorem run_ofDefinitions_snd (saved : Registry) (step : Step)
    (definitions : List Descriptor) : (step.run saved (ofDefinitions definitions)).2 =
      ofDefinitions (definitions ++ step.registered?.toList) := by
  rw [run_snd]
  rcases step.registered? with _ | d
  · exact congrArg ofDefinitions (List.append_nil definitions).symm
  · exact (ofDefinitions_concat definitions d).symm

theorem lexical_register (entered earlier : List Descriptor) (schema : String) :
    Lexical entered earlier (.register schema)
      ((ofDefinitions earlier).registerText schema).1 := by
  rw [registerText]
  rcases hread : Descriptor.ofText schema with e | d
  · exact .refused hread
  · exact .registered hread

theorem mem_keys_ofDefinitions_iff (definitions : List Descriptor) (name : String) :
    name ∈ (ofDefinitions definitions).definitions.keys ↔
      (inForce definitions name).isSome := by
  rw [Table.mem_keys_iff, Table.contains, ← get?_ofDefinitions]
  rfl

theorem lexical_size (entered earlier : List Descriptor) :
    Lexical entered earlier .size (.size (ofDefinitions earlier).size) := by
  have hnodup : (ofDefinitions earlier).definitions.keys.Nodup :=
    (ofDefinitions earlier).definitions.keys_ascending.imp fun hlt => String.ne_of_lt hlt
  have hlength : (ofDefinitions earlier).size =
      (ofDefinitions earlier).definitions.keys.length := by
    rw [size, Table.size, Table.keys, List.length_map]
  rw [hlength]
  exact .size hnodup (mem_keys_ofDefinitions_iff earlier)

theorem lexical_changed (entered earlier : List Descriptor) :
    Lexical entered earlier .changed
      (.names ((ofDefinitions earlier).changedSince (ofDefinitions entered))) := by
  apply Lexical.changed (changedSince_ascending _ _)
  intro name
  rw [mem_changedSince_iff, get?_ofDefinitions, get?_ofDefinitions]

mutual

/-- A step is answered lexically by a registry of given definitions. -/
theorem lexical_run : ∀ (entered earlier : List Descriptor) (step : Step),
    Lexical entered earlier step
      (step.run (ofDefinitions entered) (ofDefinitions earlier)).1
  | entered, earlier, .register schema => lexical_register entered earlier schema
  | entered, earlier, .get name => by
      rw [Step.run, get?_ofDefinitions]
      exact .get name
  | entered, earlier, .contains name => by
      have hcontains : (ofDefinitions earlier).contains name = (inForce earlier name).isSome := by
        rw [← get?_ofDefinitions]
        rfl
      rw [Step.run, hcontains]
      exact .contains name
  | entered, earlier, .size => lexical_size entered earlier
  | _, _, .preview code format => .preview code format
  | entered, earlier, .changed => lexical_changed entered earlier
  | _, earlier, .scope steps => .scope (lexicalAll_runAll earlier earlier steps)

/-- Steps are answered lexically, whatever they register on their way. -/
theorem lexicalAll_runAll : ∀ (entered earlier : List Descriptor) (steps : List Step),
    LexicalAll entered earlier steps
      (Step.runAll (ofDefinitions entered) steps (ofDefinitions earlier)).1
  | _, _, [] => .nil
  | entered, earlier, step :: steps => by
      rw [runAll_cons, run_ofDefinitions_snd]
      exact .cons (lexical_run entered earlier step) (lexicalAll_runAll entered _ steps)

end

end BlockForge.Registry
