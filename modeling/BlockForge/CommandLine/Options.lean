import BlockForge.Language

/-!
The options of the command line.

An option has a long name and some have a letter.  A value follows its option as
the next argument, after an equals sign, or right behind the letter; flags that
take no value may be written together behind one dash.  Two dashes end the
options.  An argument list that breaks these rules has no reading at all.
-/

namespace BlockForge.CommandLine

/-- Options that take a value. -/
inductive Key where
  | config
  | language
  | preview
  | format
  | typeMap
  | schemaOut
  | stubOut
deriving DecidableEq

/-- What an argument list asks for. -/
structure Options where
  tree : Option String := none
  config : Option String := none
  language : Option Language := none
  preview : Option String := none
  format : Option String := none
  typeMaps : List String := []
  schemaOut : Option String := none
  stubOut : Option String := none
  verbose : Bool := false
deriving DecidableEq

/-- The option of a long name. -/
def Key.ofLong? : List Char → Option Key := fun name =>
  if name = "config".toList then some .config
  else if name = "language".toList then some .language
  else if name = "preview".toList then some .preview
  else if name = "format".toList then some .format
  else if name = "type-map".toList then some .typeMap
  else if name = "schema-out".toList then some .schemaOut
  else if name = "stub-out".toList then some .stubOut
  else none

/-- The option of a letter. -/
def Key.ofLetter? (c : Char) : Option Key :=
  if c = 'c' then some .config
  else if c = 'l' then some .language
  else none

namespace Options

/-- A value that may be given once. -/
def once {α : Type} (old : Option α) (new : α) : Option (Option α) :=
  match old with
  | none => some (some new)
  | some _ => none

/-- Give an option a value.  Only type mappings may come more than once. -/
def set (o : Options) (key : Key) (value : String) : Option Options :=
  match key with
  | .config => (once o.config value).map fun v => { o with config := v }
  | .language => do
      let language ← Language.ofKey? value
      (once o.language language).map fun v => { o with language := v }
  | .preview => (once o.preview value).map fun v => { o with preview := v }
  | .format => (once o.format value).map fun v => { o with format := v }
  | .typeMap => some { o with typeMaps := o.typeMaps ++ [value] }
  | .schemaOut => (once o.schemaOut value).map fun v => { o with schemaOut := v }
  | .stubOut => (once o.stubOut value).map fun v => { o with stubOut := v }

/-- Ask for details, once. -/
def setVerbose (o : Options) : Option Options :=
  if o.verbose then none else some { o with verbose := true }

/-- Name the editor tree, once. -/
def setTree (o : Options) (path : String) : Option Options :=
  (once o.tree path).map fun v => { o with tree := v }

/-- Only arguments that are no options. -/
def withPlain (o : Options) : List String → Option Options
  | [] => some o
  | path :: rest => (o.setTree path).bind fun o => o.withPlain rest

/-- Letters behind one dash.  The last letter may be an option that takes its
value from the next argument. -/
def withLetters (o : Options) : List Char → Option (Options × Option Key)
  | [] => some (o, none)
  | c :: rest =>
      if c = 'v' then o.setVerbose.bind fun o => o.withLetters rest
      else
        match Key.ofLetter? c, rest with
        | none, _ => none
        | some key, [] => some (o, some key)
        | some key, '=' :: value => (o.set key (String.ofList value)).map fun o => (o, none)
        | some key, value => (o.set key (String.ofList value)).map fun o => (o, none)

/-- A long name, with a value if there is an equals sign. -/
def withLong (o : Options) (text : List Char) : Option (Options × Option Key) :=
  let name := text.takeWhile (· ≠ '=')
  let value := (text.dropWhile (· ≠ '=')).drop 1
  let hasValue := text.contains '='
  if name = "verbose".toList then
    if hasValue then none else o.setVerbose.map fun o => (o, none)
  else
    match Key.ofLong? name with
    | none => none
    | some key =>
        if hasValue then (o.set key (String.ofList value)).map fun o => (o, none)
        else some (o, some key)

/-- Whether an argument can be the value of the option before it. -/
def isValue (arg : String) : Bool :=
  match arg.toList with
  | '-' :: _ :: _ => false
  | _ => true

/-- Read arguments one after the other; `waiting` is an option whose value comes
next. -/
def withArgs (o : Options) (waiting : Option Key) : List String → Option Options
  | [] => if waiting.isSome then none else some o
  | arg :: rest =>
      match waiting with
      | some key => if isValue arg then (o.set key arg).bind fun o => o.withArgs none rest else none
      | none =>
          match arg.toList with
          | ['-', '-'] => o.withPlain rest
          | '-' :: '-' :: text =>
              (o.withLong text).bind fun r => r.1.withArgs r.2 rest
          | '-' :: c :: letters =>
              (o.withLetters (c :: letters)).bind fun r => r.1.withArgs r.2 rest
          | _ => (o.setTree arg).bind fun o => o.withArgs none rest

/-- The reading of an argument list, which has to name the editor tree. -/
def ofArgs (args : List String) : Option Options :=
  (withArgs {} none args).filter fun o => o.tree.isSome

end Options

end BlockForge.CommandLine
