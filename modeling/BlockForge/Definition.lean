import BlockForge.Definition.Token
import BlockForge.Text.Identifier
import BlockForge.Workspace.TypeTree

/-!
Definitions: the descriptor that a container block and the blocks in it define.

Every enabled input block gives a row: the tokens of its fields, closed by the
input.  The rows one after the other make the message, in which each argument
stands as a numbered reference, and the list of arguments.  A dummy input that
closes a row with content at the very end is left out, because the fields left
over at the end of a message form such a row by themselves.
-/

namespace BlockForge

/-- The connection layout that a container selects. -/
inductive ConnectionShape where
  | output
  | both
  | top
  | bottom
  | none
deriving DecidableEq

/-- The layout an editor field selects; anything unknown is none. -/
def ConnectionShape.ofField : Option String → ConnectionShape
  | some "LEFT" => .output
  | some "BOTH" => .both
  | some "TOP" => .top
  | some "BOTTOM" => .bottom
  | _ => .none

/-- The kind of input that a block of some kind is. -/
def Kind.input? : Kind → Option InputKind
  | .dummyInput => some .dummy
  | .valueInput => some .value
  | .statementInput => some .statement
  | _ => none

/-- The tokens of a row and the input that closes it. -/
structure Row where
  tokens : List FieldToken
  input : InputArg

/-- A part of a message: text, or an argument that is referred to. -/
inductive MessagePart where
  | text (escaped : String)
  | arg (arg : Arg)

namespace MessagePart

def ofToken : FieldToken → MessagePart
  | .text escaped => .text escaped
  | .field field => .arg (.field field)

def arg? : MessagePart → Option Arg
  | .text _ => none
  | .arg a => some a

/-- The texts of the parts, where arguments are numbered from the given number
on. -/
def numbered : Nat → List MessagePart → List String
  | _, [] => []
  | n, .text escaped :: rest => escaped :: numbered n rest
  | n, .arg _ :: rest => ("%" ++ toString n) :: numbered (n + 1) rest

/-- The message of some parts, with a space between any two. -/
def message (parts : List MessagePart) : String :=
  String.intercalate " " (numbered 1 parts)

end MessagePart

def Row.hasContent (row : Row) : Bool :=
  row.tokens.any FieldToken.hasContent

def Row.parts (row : Row) : List MessagePart :=
  row.tokens.map MessagePart.ofToken ++ [.arg (.input row.input)]

/-- The input that is left out at the end of some rows: a dummy that closes a row
with content. -/
def droppedInput? (rows : List Row) : Option InputArg :=
  match rows.getLast? with
  | some row =>
      if row.input.kind = .dummy ∧ row.hasContent then some row.input else none
  | none => none

/-- The parts of a message for some rows. -/
def rowParts (rows : List Row) : List MessagePart :=
  let parts := rows.flatMap Row.parts
  match droppedInput? rows with
  | some _ => parts.dropLast
  | none => parts

/-- The alignment to remember for an input that is left out. -/
def droppedAlign? (rows : List Row) : Option Align :=
  (droppedInput? rows).bind fun input => if input.align.isLeft then none else some input.align

namespace Workspace

/-- The enabled input blocks of a container in the order of their chain. -/
def inputs (ws : Workspace) (root : NodeId) : List (NodeId × Node × InputKind) :=
  ((ws.chain (ws.slot? root "INPUTS")).filter ws.isEnabled).filterMap fun id =>
    (ws.node? id).bind fun node => node.kind.input?.map fun kind => (id, node, kind)

/-- The name of an input; a dummy has none. -/
def inputName (node : Node) : InputKind → Option String
  | .dummy => none
  | _ => some (node.text "INPUTNAME")

/-- The row of an input block.  On an input, a check for any type is no check. -/
def row (ws : Workspace) (input : NodeId × Node × InputKind) : Except GenerationError Row := do
  let (id, node, kind) := input
  let check ← ws.typeConstraint id "TYPE"
  return {
    tokens := ws.fieldTokens (ws.slot? id "FIELDS")
    input := {
      kind := kind
      name := inputName node kind
      check := check.filter fun c => c ≠ .any
      align := .ofField (node.field? "ALIGN") } }

def rows (ws : Workspace) (root : NodeId) : Except GenerationError (List Row) :=
  (ws.inputs root).mapM ws.row

/-- The connections that a container selects. -/
def connections (ws : Workspace) (root : NodeId) : Except GenerationError Connections :=
  match ConnectionShape.ofField (ws.field? root "CONNECTIONS") with
  | .output => do return .output (← ws.typeConstraint root "OUTPUTTYPE")
  | .both => do
      let previous ← ws.typeConstraint root "TOPTYPE"
      let next ← ws.typeConstraint root "BOTTOMTYPE"
      return .statement previous next
  | .top => do return .statement (← ws.typeConstraint root "TOPTYPE") none
  | .bottom => do return .statement none (← ws.typeConstraint root "BOTTOMTYPE")
  | .none => return .none

/-- How a container wants its inputs laid out, if it says so. -/
def inputsInline? (ws : Workspace) (root : NodeId) : Option Bool :=
  match ws.field? root "INLINE" with
  | some "EXT" => some false
  | some "INT" => some true
  | _ => none

/-- The hue of a container's colour block. -/
def hue? (ws : Workspace) (root : NodeId) : Option Int :=
  match ws.slot? root "COLOUR" with
  | some colour =>
      if ws.isEnabled colour then FieldNumber.leadingInt? ((ws.field? colour "HUE").getD "")
      else none
  | none => none

end Workspace

/-- The texts that go into every schema as they are. -/
structure Compiler where
  helpUrl : String := defaultHelpUrl
  tooltip : String := ""

namespace Compiler

/-- The descriptor that a container defines. -/
def assemble (c : Compiler) (ws : Workspace) (root : NodeId) :
    Except GenerationError Descriptor := do
  let rows ← ws.rows root
  let connections ← ws.connections root
  let parts := rowParts rows
  let descriptor : Descriptor := {
    blockType := Text.identifier ((ws.field? root "NAME").getD "")
    lastDummyAlign := droppedAlign? rows
    message := MessagePart.message parts
    args := parts.filterMap MessagePart.arg?
    inputsInline := ws.inputsInline? root
    colour := ws.hue? root
    tooltip := c.tooltip
    helpUrl := c.helpUrl }
  return descriptor.withConnections connections

/-- The descriptor of the first container on the surface. -/
def compile (c : Compiler) (ws : Workspace) : Except GenerationError Descriptor :=
  if ws.size = 0 then .error .emptyInput
  else
    match ws.root? with
    | none => .error .missingRoot
    | some root => c.assemble ws root

end Compiler

end BlockForge
