import BlockForge.Schema
import BlockForge.Json.Writer

/-!
Schemas as JSON.

A key whose value is absent is left out, so is an empty list of arguments and a
left alignment.  A whole number that a double holds exactly is written without a
fraction, and a number that is not finite is written as null.
-/

namespace BlockForge

/-- The largest whole number up to which every whole number is a double. -/
def maxExactInteger : Nat := 0x1fffffffffffff

/-- A number as schemas write it. -/
def Double.toJson (x : Double) : Json :=
  if x.isFinite then
    match x.toInt? with
    | some i => if i.natAbs ≤ maxExactInteger then .number (.integer i) else .number (.real x)
    | none => .number (.real x)
  else .null

/-- A member that is left out when its value is absent. -/
def optionalMember {α : Type} (key : String) (write : α → Json) :
    Option α → List (String × Json)
  | some a => [(key, write a)]
  | none => []

def Align.name : Align → String
  | .left => "LEFT"
  | .centre => "CENTRE"
  | .right => "RIGHT"

def Align.toJson (align : Align) : Json :=
  .text align.name

def Constraint.toJson : Constraint → Json
  | .any => .null
  | .one name => .text name
  | .many names => .array (names.map .text)

/-- An option of a dropdown: what it shows and what it stands for. -/
def optionToJson (option : String × String) : Json :=
  .array [.text option.1, .text option.2]

def FieldArg.toJson : FieldArg → Json
  | .text name content =>
      .object [("type", .text "field_input"), ("name", .text name), ("text", .text content)]
  | .number name value low high step =>
      .object ([("type", .text "field_number"), ("name", .text name), ("value", value.toJson)] ++
        optionalMember "min" Double.toJson low ++ optionalMember "max" Double.toJson high ++
        optionalMember "precision" Double.toJson step)
  | .angle name degrees =>
      .object [("type", .text "field_angle"), ("name", .text name), ("angle", degrees.toJson)]
  | .checkbox name checked =>
      .object [("type", .text "field_checkbox"), ("name", .text name), ("checked", .bool checked)]
  | .colour name shade =>
      .object [("type", .text "field_colour"), ("name", .text name), ("colour", .text shade)]
  | .variablePicker name selected =>
      .object [("type", .text "field_variable"), ("name", .text name),
        ("variable", match selected with | some chosen => .text chosen | none => .null)]
  | .dropdown name options =>
      .object [("type", .text "field_dropdown"), ("name", .text name),
        ("options", .array (options.map optionToJson))]
  | .image src width height alt =>
      .object [("type", .text "field_image"), ("src", .text src), ("width", width.toJson),
        ("height", height.toJson), ("alt", .text alt)]
  | .label name content =>
      .object ([("type", .text "field_label")] ++ optionalMember "name" Json.text name ++
        [("text", .text content)])

def InputKind.typeName : InputKind → String
  | .dummy => "input_dummy"
  | .value => "input_value"
  | .statement => "input_statement"

def InputArg.toJson (input : InputArg) : Json :=
  .object ([("type", .text input.kind.typeName)] ++ optionalMember "name" Json.text input.name ++
    optionalMember "check" Constraint.toJson input.check ++
    if input.align.isLeft then [] else [("align", input.align.toJson)])

def Arg.toJson : Arg → Json
  | .field arg => arg.toJson
  | .input arg => arg.toJson

namespace Descriptor

/-- The schema as a JSON value, its keys in their fixed order. -/
def toJson (d : Descriptor) : Json :=
  .object ([("type", .text d.blockType)] ++
    optionalMember "lastDummyAlign0" Align.toJson d.lastDummyAlign ++
    [("message0", .text d.message)] ++
    (if d.args.isEmpty then [] else [("args0", .array (d.args.map Arg.toJson))]) ++
    optionalMember "inputsInline" Json.bool d.inputsInline ++
    optionalMember "output" Constraint.toJson d.output ++
    optionalMember "previousStatement" Constraint.toJson d.previousStatement ++
    optionalMember "nextStatement" Constraint.toJson d.nextStatement ++
    optionalMember "colour" (fun hue => Json.number (.integer hue)) d.colour ++
    [("tooltip", .text d.tooltip), ("helpUrl", .text d.helpUrl)])

/-- The text of a schema. -/
def toText (d : Descriptor) : String :=
  d.toJson.toIndented

end Descriptor

end BlockForge
