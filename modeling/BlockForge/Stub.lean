import BlockForge.Instance
import BlockForge.Language
import BlockForge.Text.Identifier

/-!
Generator stubs: the skeleton of a function that writes code for a block.

A stub has a line for every named field that has a value and for every named
input that takes blocks, and then a body to be filled in.
-/

namespace BlockForge

/-- The object that generator functions hang off when no other one is configured. -/
def defaultNamespace : String := "Blockly"

/-- The kinds of fields with an accessor, the more special ones first. -/
def accessorOrder : List FieldKind :=
  [.variablePicker, .angle, .colour, .checkbox, .dropdown, .number, .textInput]

/-- The kind of accessor for a field: the first one that the field's kind is. -/
def accessorKind? (kind : FieldKind) : Option FieldKind :=
  accessorOrder.find? fun general => kind.isA general

/-- What the variable for a field of some kind is called first. -/
def FieldKind.stem : FieldKind → String
  | .variablePicker => "variable"
  | .angle => "angle"
  | .colour => "colour"
  | .checkbox => "checkbox"
  | .dropdown => "dropdown"
  | .number => "number"
  | .textInput => "text"
  | .label => "label"
  | .image => "image"

/-- The declaration of the variable for something with a name. -/
def variableFor (stem name : String) : String :=
  "  var " ++ stem ++ "_" ++ Text.folded name

/-- A name that is not empty. -/
def givenName? (name : Option String) : Option String :=
  name.filter fun n => n ≠ ""

/-- How stubs are written. -/
structure StubWriter where
  language : Language
  root : String := defaultNamespace

namespace StubWriter

/-- The object of the language's generator. -/
def generator (w : StubWriter) : String :=
  w.root ++ "." ++ w.language.name

/-- The line that reads a field. -/
def fieldLine? (w : StubWriter) (field : InstanceField) : Option String := do
  let name ← givenName? field.name
  let kind ← accessorKind? field.kind
  let declared := variableFor kind.stem name
  let value := "block.getFieldValue('" ++ name ++ "')"
  match kind with
  | .variablePicker =>
      some (declared ++ " = " ++ w.generator ++ ".variableDB_.getName(" ++ value ++ ", " ++
        w.root ++ ".Variables.NAME_TYPE);")
  | .checkbox => some (declared ++ " = " ++ value ++ " == 'TRUE';")
  | _ => some (declared ++ " = " ++ value ++ ";")

/-- The line that reads the code of the blocks in an input. -/
def inputLine? (w : StubWriter) (input : InstanceInput) : Option String := do
  let name ← givenName? input.name
  match input.kind with
  | .value =>
      some (variableFor "value" name ++ " = " ++ w.generator ++ ".valueToCode(block, '" ++ name ++
        "', " ++ w.generator ++ ".ORDER_ATOMIC);")
  | .statement =>
      some (variableFor "statements" name ++ " = " ++ w.generator ++
        ".statementToCode(block, '" ++ name ++ "');")
  | .dummy => none

/-- The lines for a row. -/
def rowLines (w : StubWriter) (input : InstanceInput) : List String :=
  input.fields.filterMap w.fieldLine? ++ (w.inputLine? input).toList

/-- The lines that give the code back. -/
def resultLines (w : StubWriter) (hasOutput : Bool) : List String :=
  if hasOutput then
    ["  var code = '...';",
     "  // TODO: Change ORDER_NONE to the correct strength.",
     "  return [code, " ++ w.generator ++ ".ORDER_NONE];"]
  else
    ["  var code = '..." ++ w.language.terminator ++ "\\n';",
     "  return code;"]

/-- The lines of the stub for a block. -/
def lines (w : StubWriter) (block : Instance) : List String :=
  [w.generator ++ "['" ++ block.blockType ++ "'] = function(block) \x7b"] ++
    block.inputs.flatMap w.rowLines ++
    ["  // TODO: Assemble " ++ w.language.name ++ " into code variable."] ++
    w.resultLines block.hasOutput ++ ["\x7d;"]

/-- The stub for a block. -/
def write (w : StubWriter) (block : Instance) : String :=
  String.intercalate "\n" (w.lines block)

end StubWriter

end BlockForge
