import BlockForge.Config
import BlockForge.Definition
import BlockForge.Schema.Writer

/-!
Sessions: a configuration, a registry, and the output of the last update that
succeeded.

An update or preview that fails, or that has nothing to do, leaves the session
as it is.  A preview that shows a block replaces the stub of the output, and
never the schema.
-/

namespace BlockForge

/-- What an update makes: the text of the schema, and a stub if a block was shown. -/
structure Output where
  schema : String
  stub : Option String
deriving DecidableEq

structure Session where
  config : Config := {}
  registry : Registry := {}
  output : Option Output := none
deriving DecidableEq

namespace Session

/-- The compiler that a configuration asks for. -/
def compiler (s : Session) : Compiler :=
  ⟨s.config.helpUrl, s.config.tooltip⟩

/-- The stub writer that a configuration asks for. -/
def writer (s : Session) : StubWriter :=
  ⟨s.config.language, s.config.root⟩

/-- The stub for what a preview shows; only a block has one. -/
def stubOf (s : Session) : Preview → Option String
  | .block block => some (s.writer.write block)
  | .source _ => none
  | .unchanged => none

/-- The stub for the block that a preview of code shows, and the session afterwards. -/
def stubFor (s : Session) (code : String) (format : PreviewFormat) :
    Except GenerationError (Option String) × Session :=
  let (preview, registry) := Preview.pass code format s.registry
  (preview.map s.stubOf, { s with registry := registry })

/-- The stub of a schema; having nothing to show is no failure. -/
def schemaStub (s : Session) (schema : String) :
    Except GenerationError (Option String) × Session :=
  match s.stubFor schema .json with
  | (.ok stub, s) => (.ok stub, s)
  | (.error e, s) => (if e.isNoop then .ok none else .error e, s)

/-- The output that a workspace gives, if it defines a block. -/
def outputOf (s : Session) (ws : Workspace) : Except GenerationError (Option Output) × Session :=
  match s.compiler.compile ws with
  | .error e => (if e.isNoop then .ok none else .error e, s)
  | .ok d =>
      let (stub, s) := s.schemaStub d.toText
      (stub.map fun stub => some ⟨d.toText, stub⟩, s)

/-- Make the output of a workspace the output of the session. -/
def update (s : Session) (ws : Workspace) : Except GenerationError (Option Output) × Session :=
  match s.outputOf ws with
  | (.ok (some output), s) => (.ok (some output), { s with output := some output })
  | result => result

/-- Preview code in the configured format. -/
def preview (s : Session) (code : String) : Except GenerationError (Option String) × Session :=
  match s.stubFor code s.config.format with
  | (.ok (some stub), s) =>
      (.ok (some stub), { s with output := s.output.map fun o => { o with stub := some stub } })
  | result => result

/-- Looking for a stub leaves the session as it is. -/
theorem stubFor_eq (s : Session) (code : String) (format : PreviewFormat) :
    s.stubFor code format =
      ((Preview.render code format s.registry).map s.stubOf, s) := by
  have hsame : (Preview.pass code format s.registry).2 = s.registry :=
    Preview.pass_snd code format s.registry
  change (_, { s with registry := (Preview.pass code format s.registry).2 }) = _
  rw [hsame]
  rfl

theorem schemaStub_snd (s : Session) (schema : String) : (s.schemaStub schema).2 = s := by
  rw [schemaStub, stubFor_eq]
  cases Preview.render schema .json s.registry <;> rfl

theorem outputOf_snd (s : Session) (ws : Workspace) : (s.outputOf ws).2 = s := by
  rw [outputOf]
  cases s.compiler.compile ws with
  | error e => rfl
  | ok d =>
      have hsame := s.schemaStub_snd d.toText
      dsimp only
      rcases hmade : s.schemaStub d.toText with ⟨stub, s'⟩
      rw [hmade] at hsame
      exact hsame

end Session

end BlockForge
