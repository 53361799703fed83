import BlockForge.Preview
import BlockForge.Stub

/-!
The configuration of a session, and reading it from JSON text.
-/

namespace BlockForge

/-- What a session needs to know besides the blocks. -/
structure Config where
  language : Language := .javaScript
  root : String := defaultNamespace
  helpUrl : String := defaultHelpUrl
  tooltip : String := ""
  format : PreviewFormat := .json
deriving DecidableEq

/-- What can go wrong while a configuration is loaded. -/
inductive ConfigError where
  | io (path reason : String)
  | parse (fault : Json.Fault)
deriving DecidableEq

/-- The wording of every error. -/
def ConfigError.message : ConfigError → String
  | .io path reason => "Could not read config file '" ++ path ++ "': " ++ reason
  | .parse fault => "Failed to parse config JSON: " ++ fault.message

namespace Config

open Json (Draft Fault Entry Choice)

def languageChoice : Choice Language :=
  ⟨Language.all.map Language.name, fun name => Language.all.find? fun l => l.name == name⟩

def formatOfName? : String → Option PreviewFormat
  | "JSON" => some .json
  | "JavaScript" => some .source
  | "Source" => some .source
  | "Manual" => some .manual
  | _ => none

def formatChoice : Choice PreviewFormat :=
  ⟨["JSON", "JavaScript", "Source", "Manual"], formatOfName?⟩

/-- What was read of a configuration so far. -/
structure Parts where
  language : Option Language := none
  root : Option String := none
  helpUrl : Option String := none
  tooltip : Option String := none
  format : Option PreviewFormat := none

/-- The entries of a configuration in their order. -/
def entries : List (Entry Parts) :=
  [{ name := "language", isSet := (·.language.isSome)
     read := fun n p v => do return { p with language := some (← v.asChoice n languageChoice) } },
   { name := "namespace", isSet := (·.root.isSome)
     read := fun _ p v => do return { p with root := some (← v.asText) } },
   { name := "helpUrl", isSet := (·.helpUrl.isSome)
     read := fun _ p v => do return { p with helpUrl := some (← v.asText) } },
   { name := "tooltip", isSet := (·.tooltip.isSome)
     read := fun _ p v => do return { p with tooltip := some (← v.asText) } },
   { name := "format", isSet := (·.format.isSome)
     read := fun n p v => do return { p with format := some (← v.asChoice n formatChoice) } }]

/-- The configuration of the entries that were read; the others have their
defaults. -/
def ofParts (p : Parts) : Config where
  language := p.language.getD .javaScript
  root := p.root.getD defaultNamespace
  helpUrl := p.helpUrl.getD defaultHelpUrl
  tooltip := p.tooltip.getD ""
  format := p.format.getD .json

def read (levels : Nat) (draft : Draft) : Except Fault Config :=
  (draft.asRecord "struct FactoryConfig" entries {} levels).map ofParts

/-- The configuration in a text. -/
def ofText (text : String) : Except ConfigError Config :=
  (Json.readText text read).mapError .parse

end Config

end BlockForge
