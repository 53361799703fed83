import BlockForge.Schema
import BlockForge.Json.Reader
import BlockForge.GenerationError

/-!
Schemas from JSON text.

Constraints and arguments come in several forms that only their content tells
apart.  They are read as plain JSON first and matched afterwards, so what is
wrong inside one is reported as matching no form, while its text has to be sound
all the same.  A field and an input may be an object or an array that holds the
same entries in order.
-/

namespace BlockForge

open Json (Draft Fault Entry Choice Number)

/-- The members of a JSON object under the keys that matter, each at most once.
Other members are ignored. -/
def knownMembers? (keys : List String) (members : List (String × Json)) :
    Option (String → Option Json) :=
  let known := members.filter fun m => keys.contains m.1
  if (known.map Prod.fst).Nodup then some fun key => (known.find? fun m => m.1 == key).map Prod.snd
  else none

/-- The elements of a JSON array under the keys of the same places. -/
def placedMembers? (keys : List String) (items : List Json) :
    Option (String → Option Json) :=
  if items.length ≤ keys.length then
    some fun key => ((keys.zip items).find? fun m => m.1 == key).map Prod.snd
  else none

namespace Json

def text? : Json → Option String
  | .text s => some s
  | _ => none

def bool? : Json → Option Bool
  | .bool b => some b
  | _ => none

/-- A number of either kind as a double. -/
def double? : Json → Option Double
  | .number (.integer i) => some (Double.ofInt i)
  | .number (.real x) => some x
  | _ => none

/-- A number, where null is no number at all. -/
def doubleOrNan? : Json → Option Double
  | .null => some .nan
  | value => value.double?

/-- A value that may be null or missing. -/
def optional? {α : Type} (read : Json → Option α) : Option Json → Option (Option α)
  | none => some none
  | some .null => some none
  | some value => (read value).map some

/-- Two texts. -/
def pair? : Json → Option (String × String)
  | .array [.text a, .text b] => some (a, b)
  | _ => none

end Json

def Align.ofName? : String → Option Align
  | "LEFT" => some .left
  | "CENTRE" => some .centre
  | "RIGHT" => some .right
  | _ => none

/-- The choice between alignments. -/
def Align.choice : Choice Align :=
  ⟨["LEFT", "CENTRE", "RIGHT"], Align.ofName?⟩

/-- A name, or an object that holds null under a name. -/
def choiceOfJson? {α : Type} (ofName? : String → Option α) : Json → Option α
  | .text name => ofName? name
  | .object [(name, .null)] => ofName? name
  | _ => none

def Constraint.ofJson? : Json → Option Constraint
  | .null => some .any
  | .text name => some (.one name)
  | .array items => (items.mapM Json.text?).map .many
  | _ => none

/-- The kinds of fields in the order that numbers them. -/
inductive FieldType where
  | input
  | number
  | angle
  | checkbox
  | colour
  | variablePicker
  | dropdown
  | image
  | label
deriving DecidableEq

namespace FieldType

def ofName? : String → Option FieldType
  | "field_input" => some .input
  | "field_number" => some .number
  | "field_angle" => some .angle
  | "field_checkbox" => some .checkbox
  | "field_colour" => some .colour
  | "field_variable" => some .variablePicker
  | "field_dropdown" => some .dropdown
  | "field_image" => some .image
  | "field_label" => some .label
  | _ => none

/-- The field type a `type` entry selects, by name or by number. -/
def ofJson? : Json → Option FieldType
  | .text name => ofName? name
  | .number (.integer (.ofNat n)) =>
      [input, number, angle, checkbox, colour, variablePicker, dropdown, image, label][n]?
  | _ => none

/-- The keys of a field of some type in their order. -/
def keys : FieldType → List String
  | .input => ["name", "text"]
  | .number => ["name", "value", "min", "max", "precision"]
  | .angle => ["name", "angle"]
  | .checkbox => ["name", "checked"]
  | .colour => ["name", "colour"]
  | .variablePicker => ["name", "variable"]
  | .dropdown => ["name", "options"]
  | .image => ["src", "width", "height", "alt"]
  | .label => ["name", "text"]

/-- A field of some type from its entries. -/
def read? (entries : String → Option Json) : FieldType → Option FieldArg
  | .input => do
      some (.text (← (← entries "name").text?) (← (← entries "text").text?))
  | .number => do
      some (.number (← (← entries "name").text?) (← (← entries "value").doubleOrNan?)
        (← Json.optional? Json.double? (entries "min"))
        (← Json.optional? Json.double? (entries "max"))
        (← Json.optional? Json.double? (entries "precision")))
  | .angle => do
      some (.angle (← (← entries "name").text?) (← (← entries "angle").doubleOrNan?))
  | .checkbox => do
      some (.checkbox (← (← entries "name").text?) (← (← entries "checked").bool?))
  | .colour => do
      some (.colour (← (← entries "name").text?) (← (← entries "colour").text?))
  | .variablePicker => do
      some (.variablePicker (← (← entries "name").text?)
        (← Json.optional? Json.text? (entries "variable")))
  | .dropdown => do
      match ← entries "options" with
      | .array options =>
          some (.dropdown (← (← entries "name").text?) (← options.mapM Json.pair?))
      | _ => none
  | .image => do
      some (.image (← (← entries "src").text?) (← (← entries "width").doubleOrNan?)
        (← (← entries "height").doubleOrNan?) (← (← entries "alt").text?))
  | .label => do
      some (.label (← Json.optional? Json.text? (entries "name")) (← (← entries "text").text?))

end FieldType

/-- A field.  As an array it starts with its type, and a variable field then has
to hold its variable. -/
def FieldArg.ofJson? : Json → Option FieldArg
  | .object members => do
      let tag ← (← knownMembers? ["type"] members) "type"
      let type ← FieldType.ofJson? tag
      type.read? (← knownMembers? type.keys members)
  | .array (tag :: items) => do
      let type ← FieldType.ofJson? tag
      if type = .variablePicker ∧ items.length < 2 then none
      else type.read? (← placedMembers? type.keys items)
  | _ => none

def InputKind.ofName? : String → Option InputKind
  | "input_dummy" => some .dummy
  | "input_value" => some .value
  | "input_statement" => some .statement
  | _ => none

/-- The keys of an input in their order. -/
def InputArg.keys : List String := ["type", "name", "check", "align"]

/-- An input from its entries. -/
def InputArg.read? (entries : String → Option Json) : Option InputArg := do
  let kind ← choiceOfJson? InputKind.ofName? (← entries "type")
  let name ← Json.optional? Json.text? (entries "name")
  let check ← Json.optional? Constraint.ofJson? (entries "check")
  let align ←
    match entries "align" with
    | some value => choiceOfJson? Align.ofName? value
    | none => some .left
  some ⟨kind, name, check, align⟩

def InputArg.ofJson? : Json → Option InputArg
  | .object members => do InputArg.read? (← knownMembers? InputArg.keys members)
  | .array items => do InputArg.read? (← placedMembers? InputArg.keys items)
  | _ => none

/-- A field if it matches one, and otherwise an input. -/
def Arg.ofJson? (value : Json) : Option Arg :=
  match FieldArg.ofJson? value with
  | some arg => some (.field arg)
  | none => (InputArg.ofJson? value).map .input

/-- Read plain JSON and match it. -/
def matching {α : Type} (type : String) (ofJson? : Json → Option α) (levels : Nat)
    (draft : Draft) : Except Fault α := do
  let value ← draft.toJson levels
  match ofJson? value with
  | some a => .ok a
  | none => .error (.noAlternative type)

def Constraint.read : Nat → Draft → Except Fault Constraint :=
  matching "Constraint" Constraint.ofJson?

def Arg.read : Nat → Draft → Except Fault Arg :=
  matching "Arg" Arg.ofJson?

/-- What was read of a schema so far. -/
structure Descriptor.Parts where
  blockType : Option String := none
  lastDummyAlign : Option (Option Align) := none
  message : Option String := none
  args : Option (List Arg) := none
  inputsInline : Option (Option Bool) := none
  output : Option Constraint := none
  previousStatement : Option Constraint := none
  nextStatement : Option Constraint := none
  colour : Option (Option Int) := none
  tooltip : Option String := none
  helpUrl : Option String := none

namespace Descriptor

/-- The entries of a schema in their order.  A connection key that is present
always gives a constraint, null the one that accepts every type. -/
def entries : List (Entry Parts) :=
  [{ name := "type", isSet := (·.blockType.isSome)
     read := fun _ p v => do return { p with blockType := some (← v.asText) } },
   { name := "lastDummyAlign0", isSet := (·.lastDummyAlign.isSome)
     read := fun n p v => do
       return { p with lastDummyAlign := some (← v.asOptional (Draft.asChoice n Align.choice)) } },
   { name := "message0", isSet := (·.message.isSome)
     read := fun _ p v => do return { p with message := some (← v.asText) } },
   { name := "args0", isSet := (·.args.isSome)
     read := fun n p v => do return { p with args := some (← v.asList n Arg.read) } },
   { name := "inputsInline", isSet := (·.inputsInline.isSome)
     read := fun _ p v => do
       return { p with inputsInline := some (← v.asOptional Draft.asBool) } },
   { name := "output", isSet := (·.output.isSome)
     read := fun n p v => do return { p with output := some (← Constraint.read n v) } },
   { name := "previousStatement", isSet := (·.previousStatement.isSome)
     read := fun n p v => do return { p with previousStatement := some (← Constraint.read n v) } },
   { name := "nextStatement", isSet := (·.nextStatement.isSome)
     read := fun n p v => do return { p with nextStatement := some (← Constraint.read n v) } },
   { name := "colour", isSet := (·.colour.isSome)
     read := fun _ p v => do return { p with colour := some (← v.asOptional Draft.asSigned) } },
   { name := "tooltip", isSet := (·.tooltip.isSome)
     read := fun _ p v => do return { p with tooltip := some (← v.asText) } },
   { name := "helpUrl", isSet := (·.helpUrl.isSome)
     read := fun _ p v => do return { p with helpUrl := some (← v.asText) } }]

/-- The schema of the entries that were read; the others have their defaults. -/
def ofParts (p : Parts) : Descriptor where
  blockType := p.blockType.getD ""
  lastDummyAlign := p.lastDummyAlign.join
  message := p.message.getD ""
  args := p.args.getD []
  inputsInline := p.inputsInline.join
  output := p.output
  previousStatement := p.previousStatement
  nextStatement := p.nextStatement
  colour := p.colour.join
  tooltip := p.tooltip.getD ""
  helpUrl := p.helpUrl.getD ""

def read (levels : Nat) (draft : Draft) : Except Fault Descriptor :=
  (draft.asRecord "struct BlockDescriptor" entries {} levels).map ofParts

/-- The schema in a text. -/
def ofText (text : String) : Except GenerationError Descriptor :=
  (Json.readText text read).mapError fun fault => .invalidSchema fault.message

end Descriptor

end BlockForge
