/-!
The kinds of blocks a definition is built from.

An editor block's type name fixes the kind of its node; a name outside the list
has no kind.  Four of the names also declare a value type.
-/

namespace BlockForge

/-- The role of a node in a definition. -/
inductive Kind where
  | container
  | valueInput
  | statementInput
  | dummyInput
  | literalText
  | textField
  | numberField
  | angleField
  | checkboxField
  | colourField
  | variableField
  | dropdownField
  | imageField
  | typeGroup
  | typeOther
  | typeAtom
  | colourHue
  | other
deriving DecidableEq

/-- The kind that a type name stands for. -/
def Kind.ofTypeName? : String → Option Kind
  | "factory_base" => some .container
  | "input_value" => some .valueInput
  | "input_statement" => some .statementInput
  | "input_dummy" => some .dummyInput
  | "field_static" => some .literalText
  | "field_input" => some .textField
  | "field_number" => some .numberField
  | "field_angle" => some .angleField
  | "field_checkbox" => some .checkboxField
  | "field_colour" => some .colourField
  | "field_variable" => some .variableField
  | "field_dropdown" => some .dropdownField
  | "field_image" => some .imageField
  | "type_group" => some .typeGroup
  | "type_other" => some .typeOther
  | "type_null" => some .typeAtom
  | "type_boolean" => some .typeAtom
  | "type_number" => some .typeAtom
  | "type_string" => some .typeAtom
  | "type_list" => some .typeAtom
  | "colour_hue" => some .colourHue
  | _ => none

/-- The value type that a type name declares by itself. -/
def builtinValueType? : String → Option String
  | "type_boolean" => some "Boolean"
  | "type_number" => some "Number"
  | "type_string" => some "String"
  | "type_list" => some "Array"
  | _ => none

end BlockForge
