import BlockForge.CommandLine.Options
import BlockForge.Editor.Reader
import BlockForge.Session

/-!
The program: it reads an editor tree, and delivers a schema and a stub.

What the program does to its surroundings goes through a `Host`, so it can run on
real files as well as on a `Directory` in memory.  The two results are delivered
after everything that can fail has been done, apart from the delivery itself.
-/

namespace BlockForge.CommandLine

/-- What the program needs from its surroundings.  Reading and writing give the
reason when they fail. -/
structure Host (m : Type → Type) where
  read : String → m (Except String String)
  write : String → String → m (Except String Unit)
  print : String → m Unit
  report : String → m Unit

variable {m : Type → Type} [Monad m]

/-- A step of the program: it may stop with a message. -/
abbrev Task (m : Type → Type) (α : Type) := ExceptT String m α

/-- Stop with a message when something failed. -/
def orStop {ε α : Type} (describe : ε → String) (result : Except ε α) : Task m α :=
  match result with
  | .ok a => pure a
  | .error e => throw (describe e)

/-- The content of a file. -/
def readFile (host : Host m) (describe : String → String) (path : String) : Task m String := do
  let result ← ExceptT.lift (host.read path)
  orStop describe result

/-- The configuration of the options' file, or the defaults. -/
def baseConfig (host : Host m) (o : Options) : Task m Config :=
  let loadFailed (e : ConfigError) := "Failed to load config: " ++ e.message
  match o.config with
  | none => pure {}
  | some path => do
      let text ← readFile host (fun reason => loadFailed (.io path reason)) path
      orStop loadFailed (Config.ofText text)

/-- The configuration of the options: a file or the defaults, with the language and
the format of the options over it. -/
def configOf (host : Host m) (o : Options) : Task m Config := do
  let base ← baseConfig host o
  let config := { base with language := o.language.getD base.language }
  match o.format with
  | none => pure config
  | some text => do
      let format ← orStop GenerationError.message (PreviewFormat.ofText text)
      pure { config with format := format }

/-- The two sides of the first equals sign of a text. -/
def splitAtEquals? (text : String) : Option (String × String) :=
  let cs := text.toList
  if cs.contains '=' then
    some (Text.trimmed (String.ofList (cs.takeWhile (· ≠ '='))),
      Text.trimmed (String.ofList ((cs.dropWhile (· ≠ '=')).drop 1)))
  else none

/-- The converter that the type mappings of the options ask for. -/
def converterOf : List String → Converter → Except String Converter
  | [], c => .ok c
  | mapping :: rest, c =>
      match splitAtEquals? mapping with
      | some (custom, builtin) => converterOf rest (c.withMapping custom builtin)
      | none =>
          .error ("Invalid type mapping '" ++ mapping ++ "', expected CUSTOM=BUILTIN")

/-- The workspace of the editor tree. -/
def workspaceOf (host : Host m) (o : Options) : Task m Workspace := do
  let path := o.tree.getD ""
  let text ← readFile host
    (fun reason => "Failed to read editor tree '" ++ path ++ "': " ++ reason) path
  let tree ← orStop (fun e : ConversionError => "Failed to parse editor tree: " ++ e.message)
    (EditorTree.ofText text)
  let converter ← orStop id (converterOf o.typeMaps {})
  orStop (fun e : ConversionError => "Failed to convert editor tree: " ++ e.message)
    (converter.convert tree)

/-- The stub that a preview shows, if the options ask for one and it shows a block, and the
stub at hand otherwise. -/
def chooseStub (host : Host m) (o : Options) (s : Session) (stub : Option String) :
    Task m (Option String) :=
  match o.preview with
  | none => pure stub
  | some path => do
      let code ← readFile host
        (fun reason => "Failed to read preview code '" ++ path ++ "': " ++ reason) path
      match ← orStop (fun e : GenerationError => "Preview failed: " ++ e.message)
          (s.preview code).1 with
      | some shown => pure (some shown)
      | none => pure stub

/-- Write a result to its file, or print it with an empty line after it. -/
def deliver (host : Host m) (path : Option String) (content : String) : Task m Unit :=
  match path with
  | none => ExceptT.lift (host.print (content ++ "\n\n"))
  | some path => do
      let result ← ExceptT.lift (host.write path content)
      orStop (fun reason => "Failed to write '" ++ path ++ "': " ++ reason) result

/-- Everything up to the delivery: the output, if the tree defines a block. -/
def generate (host : Host m) (o : Options) : Task m (Option Output) := do
  let config ← configOf host o
  let ws ← workspaceOf host o
  let (result, s) := ({ config := config } : Session).update ws
  match ← orStop (fun e : GenerationError => "Generation failed: " ++ e.message) result with
  | none => pure none
  | some output => do
      let stub ← chooseStub host o s output.stub
      pure (some { output with stub := stub })

/-- Deliver the schema, and then the stub if there is one. -/
def deliverAll (host : Host m) (o : Options) (output : Output) : Task m Unit := do
  deliver host o.schemaOut output.schema
  match output.stub with
  | some stub => deliver host o.stubOut stub
  | none => pure ()

/-- The program on options that were read. -/
def runOptions (host : Host m) (o : Options) : Task m Unit := do
  match ← generate host o with
  | some output => deliverAll host o output
  | none => pure ()

/-- The program on an argument list: its exit code. -/
def runOn (host : Host m) (args : List String) : m Nat := do
  match Options.ofArgs args with
  | none => pure 2
  | some o =>
      match ← (runOptions host o).run with
      | .ok () => pure 0
      | .error message => do
          host.report ("\nError: " ++ message ++ "\n")
          pure 1

end BlockForge.CommandLine
