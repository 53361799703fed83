import BlockForge.Registry.Script
import BlockForge.Session

/-!
Scripts that work on a session.
-/

namespace BlockForge.Session

inductive Step where
  | update (workspace : Workspace)
  | preview (code : String)
  | output
  | config
  | registry (step : Registry.Step)

inductive Answer where
  | output (output : Option Output)
  | stub (stub : Option String)
  | config (config : Config)
  | registry (answer : Registry.Answer)
  | error (error : GenerationError)

/-- The answer of a step and the session after it. -/
def Step.run : Step → Session → Answer × Session
  | .update ws, s =>
      match s.update ws with
      | (.ok made, s) => (.output made, s)
      | (.error e, s) => (.error e, s)
  | .preview code, s =>
      match s.preview code with
      | (.ok stub, s) => (.stub stub, s)
      | (.error e, s) => (.error e, s)
  | .output, s => (.output s.output, s)
  | .config, s => (.config s.config, s)
  | .registry step, s =>
      let (answer, definitions) := step.run s.registry s.registry
      (.registry answer, { s with registry := definitions })

/-- The answers of steps and the session after them. -/
def Step.runAll : List Step → Session → List Answer × Session
  | [], s => ([], s)
  | step :: rest, s =>
      let (answer, s) := step.run s
      let (answers, s) := Step.runAll rest s
      (answer :: answers, s)

end BlockForge.Session
