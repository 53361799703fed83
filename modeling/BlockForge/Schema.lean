import BlockForge.Double

/-!
Block schemas: what a block shows, what plugs into it and how it connects.

A descriptor has a message with numbered references and one argument for each
number, which is a field or an input.  Its connection keys are either present or
absent, and a present one may accept every type; `connections` reads them as one
of three layouts and `withConnections` writes a layout back.
-/

namespace BlockForge

/-- The help link of a schema when no other one is configured. -/
def defaultHelpUrl : String := "http://www.example.com/"

/-- How the row of an input is aligned. -/
inductive Align where
  | left
  | centre
  | right
deriving DecidableEq

/-- The alignment an editor field selects; anything unknown is left. -/
def Align.ofField : Option String → Align
  | some "CENTRE" => .centre
  | some "RIGHT" => .right
  | _ => .left

def Align.isLeft (align : Align) : Bool :=
  align == .left

/-- The types a connection accepts. -/
inductive Constraint where
  | any
  | one (name : String)
  | many (names : List String)
deriving DecidableEq

/-- A field among the arguments. -/
inductive FieldArg where
  | text (name text : String)
  | number (name : String) (value : Double) (min max precision : Option Double)
  | angle (name : String) (angle : Double)
  | checkbox (name : String) (checked : Bool)
  | colour (name colour : String)
  | variablePicker (name : String) (selected : Option String)
  | dropdown (name : String) (options : List (String × String))
  | image (src : String) (width height : Double) (alt : String)
  | label (name : Option String) (text : String)
deriving DecidableEq, BEq

/-- The name of a field that has one. -/
def FieldArg.name? : FieldArg → Option String
  | .text name _ => some name
  | .number name _ _ _ _ => some name
  | .angle name _ => some name
  | .checkbox name _ => some name
  | .colour name _ => some name
  | .variablePicker name _ => some name
  | .dropdown name _ => some name
  | .image _ _ _ _ => none
  | .label name _ => name

inductive InputKind where
  | dummy
  | value
  | statement
deriving DecidableEq

/-- An input among the arguments.  A dummy input has no name. -/
structure InputArg where
  kind : InputKind
  name : Option String
  check : Option Constraint
  align : Align
deriving DecidableEq

inductive Arg where
  | field (arg : FieldArg)
  | input (arg : InputArg)
deriving DecidableEq, BEq

/-- How a block connects to its neighbours. -/
inductive Connections where
  | none
  | output (check : Option Constraint)
  | statement (previous next : Option Constraint)
deriving DecidableEq

/-- A block schema. -/
structure Descriptor where
  blockType : String := ""
  lastDummyAlign : Option Align := none
  message : String := ""
  args : List Arg := []
  inputsInline : Option Bool := none
  output : Option Constraint := none
  previousStatement : Option Constraint := none
  nextStatement : Option Constraint := none
  colour : Option Int := none
  tooltip : String := ""
  helpUrl : String := ""
deriving DecidableEq, BEq

namespace Descriptor

/-- The connection layout of the keys that are present; an output goes before
the statement connections. -/
def connections (d : Descriptor) : Connections :=
  if d.output.isSome then .output d.output
  else if d.previousStatement.isSome || d.nextStatement.isSome then
    .statement d.previousStatement d.nextStatement
  else .none

/-- Set all three connection keys to those of a layout. -/
def withConnections (d : Descriptor) : Connections → Descriptor
  | .none => { d with output := none, previousStatement := none, nextStatement := none }
  | .output check =>
      { d with output := check, previousStatement := none, nextStatement := none }
  | .statement previous next =>
      { d with output := none, previousStatement := previous, nextStatement := next }

end Descriptor

end BlockForge
