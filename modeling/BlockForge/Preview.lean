import BlockForge.Instance
import BlockForge.Registry
import BlockForge.Schema.Reader
import BlockForge.Source

/-!
Previews of code: a block schema is shown as the block it describes, and source
text is only checked for balance.

A schema is registered in a scope of its own, and the first name that changed there is
shown; when none did, the registry held an equal definition before.  Every preview hands
the registry on to what comes after it, with the table from before the scope.
-/

namespace BlockForge

/-- How code is understood. -/
inductive PreviewFormat where
  | json
  | source
  /-- A schema if the text is JSON at all, and source otherwise. -/
  | manual
deriving DecidableEq

/-- The format that a text names, in any case and with blanks around it. -/
def PreviewFormat.ofText (text : String) : Except GenerationError PreviewFormat :=
  match String.ofList ((Text.trim text.toList).map Char.toLower) with
  | "json" => .ok .json
  | "source" => .ok .source
  | "javascript" => .ok .source
  | "manual" => .ok .manual
  | _ => .error (.unknownFormat text)

/-- What a preview shows. -/
inductive Preview where
  | block (block : Instance)
  | source (text : String)
  | unchanged
deriving DecidableEq

namespace Preview

/-- What is shown of a scope: the first definition that changed in it. -/
def ofScope (scope : Registry.Isolated) : Except GenerationError Preview :=
  match scope.changed.head? with
  | none => .ok .unchanged
  | some name =>
      match scope.registry.get? name with
      | none => .error (.invalidSchema name)
      | some d => do
          let block ← Instance.ofDescriptor d
          return .block { block with blockType := name }

/-- Preview a schema: what is shown, or why nothing is, and the registry afterwards. -/
def passSchema (code : String) (registry : Registry) :
    Except GenerationError Preview × Registry :=
  match Descriptor.ofText code with
  | .error e => (.error e, registry)
  | .ok d =>
      let scope := registry.isolate.register d
      (ofScope scope, scope.restored)

/-- The preview of source text. -/
def ofSource (code : String) : Except GenerationError Preview :=
  match Source.flaw? code with
  | none => .ok (.source code)
  | some flaw => .error (.unbalancedSource flaw.message)

/-- Whether a text is JSON. -/
def isJson (code : String) : Bool :=
  match Json.ofText code with
  | .ok _ => true
  | .error _ => false

/-- Preview code in some format: what is shown, or why nothing is, and the registry
afterwards. -/
def pass (code : String) (format : PreviewFormat) (registry : Registry) :
    Except GenerationError Preview × Registry :=
  if Text.allBlank code then (.error .emptyInput, registry)
  else
    match format with
    | .json => passSchema code registry
    | .source => (ofSource code, registry)
    | .manual => if isJson code then passSchema code registry else (ofSource code, registry)

/-- The preview of code in some format. -/
def render (code : String) (format : PreviewFormat) (registry : Registry) :
    Except GenerationError Preview :=
  (pass code format registry).1

theorem passSchema_snd (code : String) (registry : Registry) :
    (passSchema code registry).2 = registry := by
  rw [passSchema]
  split
  next => rfl
  next d _ => exact registry.restored_isolate (registry.register d)

/-- A preview leaves the registry as it found it, however it ends. -/
theorem pass_snd (code : String) (format : PreviewFormat) (registry : Registry) :
    (pass code format registry).2 = registry := by
  unfold pass
  split
  next => rfl
  next =>
    split
    next => exact passSchema_snd code registry
    next => rfl
    next =>
      split
      next => exact passSchema_snd code registry
      next => rfl

end Preview

end BlockForge
