import BlockForge.Preview

/-!
Scripts that work on a registry.

Every step gives an answer, and only a step that registers a definition changes
the registry.  A scope isolates the registry while its steps run; what they register
is gone when it closes, and `changed` compares with the registry that the innermost
open scope was entered with.
-/

namespace BlockForge.Registry

inductive Step where
  | register (schema : String)
  | get (name : String)
  | contains (name : String)
  | size
  | preview (code format : String)
  | changed
  | scope (steps : List Step)

inductive Answer where
  | name (name : String)
  | definition (definition : Option Descriptor)
  | truth (value : Bool)
  | size (count : Nat)
  | preview (preview : Preview)
  | names (names : List String)
  | scope (answers : List Answer)
  | error (error : GenerationError)

/-- Register the schema in a text. -/
def registerText (r : Registry) (schema : String) : Answer × Registry :=
  match Descriptor.ofText schema with
  | .ok d => (.name d.registeredName, r.register d)
  | .error e => (.error e, r)

/-- What is answered to a preview. -/
def Answer.ofPreview : Except GenerationError Preview → Answer
  | .ok shown => .preview shown
  | .error e => .error e

/-- Preview code in a format that is given by its name. -/
def passText (r : Registry) (code format : String) : Answer × Registry :=
  match PreviewFormat.ofText format with
  | .error e => (.error e, r)
  | .ok format =>
      let (shown, r) := Preview.pass code format r
      (.ofPreview shown, r)

/-- The preview of code in a format that is given by its name. -/
def previewText (r : Registry) (code format : String) : Answer :=
  (r.passText code format).1

mutual

/-- The answer of a step and the registry after it, given the registry with which
the innermost open scope was entered. -/
def Step.run (saved : Registry) : Step → Registry → Answer × Registry
  | .register schema, r => r.registerText schema
  | .get name, r => (.definition (r.get? name), r)
  | .contains name, r => (.truth (r.contains name), r)
  | .size, r => (.size r.size, r)
  | .preview code format, r => r.passText code format
  | .changed, r => (.names (r.changedSince saved), r)
  | .scope steps, r =>
      let scope := r.isolate
      let (answers, registry) := Step.runAll ⟨scope.saved⟩ steps scope.registry
      (.scope answers, { scope with registry := registry }.restored)

/-- The answers of steps and the registry after them. -/
def Step.runAll (saved : Registry) : List Step → Registry → List Answer × Registry
  | [], r => ([], r)
  | step :: rest, r =>
      let (answer, r) := step.run saved r
      let (answers, r) := Step.runAll saved rest r
      (answer :: answers, r)

end

theorem passText_snd (r : Registry) (code format : String) : (r.passText code format).2 = r := by
  rw [passText]
  split
  next => rfl
  next format _ => exact Preview.pass_snd code format r

end BlockForge.Registry
