import BlockForge.Editor.Conversion
import BlockForge.FieldNumber
import BlockForge.Schema
import BlockForge.Text.Blank

/-!
Tokens: what the field blocks of a row put into it.

Literal text becomes text of the message, in which every percent sign is written
twice; any other field becomes an argument.  A dropdown without options and a
block that is no field give nothing.
-/

namespace BlockForge

/-- A part of a row: text of the message, or a field. -/
inductive FieldToken where
  | text (escaped : String)
  | field (arg : FieldArg)
deriving DecidableEq

/-- Write every percent sign twice. -/
def escapePercent (text : String) : String :=
  String.ofList (text.toList.flatMap fun c => if c = '%' then ['%', '%'] else [c])

/-- Whether a token shows anything in its row. -/
def FieldToken.hasContent : FieldToken → Bool
  | .text escaped => !Text.allBlank escaped
  | .field _ => true

namespace Node

/-- The number typed into a field. -/
def number (node : Node) (name : String) : Double :=
  FieldNumber.parse (node.text name)

/-- The options of a dropdown: what each shows and what it stands for. -/
def options (node : Node) : List (String × String) :=
  (List.range node.itemCount).map fun i => (node.text (shownKey i), node.text (codeKey i))

/-- A bound counts when it is finite. -/
def bound? (node : Node) (name : String) : Option Double :=
  let x := node.number name
  if x.isFinite then some x else none

/-- A step counts when it is a number other than zero. -/
def step? (node : Node) (name : String) : Option Double :=
  let x := node.number name
  if x.isZero || x.isNan then none else some x

/-- The token of a field block. -/
def token? (node : Node) : Option FieldToken :=
  let name := node.text "FIELDNAME"
  match node.kind with
  | .literalText => some (.text (escapePercent (node.text "TEXT")))
  | .textField => some (.field (.text name (node.text "TEXT")))
  | .numberField =>
      some (.field (.number name (node.number "VALUE") (node.bound? "MIN") (node.bound? "MAX")
        (node.step? "PRECISION")))
  | .angleField => some (.field (.angle name (node.number "ANGLE")))
  | .checkboxField => some (.field (.checkbox name (node.field? "CHECKED" == some "TRUE")))
  | .colourField => some (.field (.colour name (node.text "COLOUR")))
  | .variableField =>
      some (.field (.variablePicker name ((node.field? "TEXT").filter fun text => text ≠ "")))
  | .dropdownField =>
      if node.options.isEmpty then none else some (.field (.dropdown name node.options))
  | .imageField =>
      some (.field (.image (node.text "SRC") (node.number "WIDTH") (node.number "HEIGHT")
        (node.text "ALT")))
  | _ => none

end Node

/-- The tokens of a chain of field blocks, without the ones switched off. -/
def Workspace.fieldTokens (ws : Workspace) (head : Option NodeId) : List FieldToken :=
  ((ws.chain head).filter ws.isEnabled).filterMap fun id => (ws.node? id).bind Node.token?

end BlockForge
