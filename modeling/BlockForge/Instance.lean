import BlockForge.GenerationError
import BlockForge.Message
import BlockForge.Schema
import BlockForge.Text.Blank
import BlockForge.Word

/-!
Block instances: the rows of fields and inputs that a descriptor describes.

A field that a message refers to joins the current row, as does a label for
every run of text that is not blank, and an input closes the row.  Fields left
over at the end form a row closed by a dummy input.  Every argument has to be
referred to exactly once.
-/

namespace BlockForge

/-- The kind of a field on a block. -/
inductive FieldKind where
  | label
  | textInput
  | number
  | angle
  | checkbox
  | colour
  | dropdown
  | variablePicker
  | image
deriving DecidableEq

namespace FieldKind

/-- The more general kind that a kind is built on. -/
def specializes : FieldKind → Option FieldKind
  | number => some textInput
  | angle => some textInput
  | variablePicker => some dropdown
  | _ => none

/-- Whether a kind is another one or is built on it.  No kind is built on a kind
that is built on a third one. -/
def isA (kind general : FieldKind) : Bool :=
  kind == general || kind.specializes == some general

/-- The kind of the field that an argument describes. -/
def ofArg : FieldArg → FieldKind
  | .text _ _ => textInput
  | .number _ _ _ _ _ => number
  | .angle _ _ => angle
  | .checkbox _ _ => checkbox
  | .colour _ _ => colour
  | .variablePicker _ _ => variablePicker
  | .dropdown _ _ => dropdown
  | .image _ _ _ _ => image
  | .label _ _ => label

theorem specializes_of_specializes {kind general : FieldKind}
    (h : kind.specializes = some general) : general.specializes = none := by
  cases kind <;> simp_all [specializes] <;> subst h <;> rfl

end FieldKind

/-- A field in a row. -/
structure InstanceField where
  name : Option String
  kind : FieldKind
deriving DecidableEq

/-- A row: the input that closes it, and its fields. -/
structure InstanceInput where
  name : Option String
  kind : InputKind
  align : Align
  check : Option Constraint
  fields : List InstanceField
deriving DecidableEq

/-- A block with its rows in order. -/
structure Instance where
  blockType : String
  inputs : List InstanceInput
  connections : Connections
deriving DecidableEq

namespace Instance

/-- The largest number a reference can have; larger ones count as this one. -/
def maxReference : Nat := Word.maxUnsigned

/-- A field without a name that shows text. -/
def plainLabel : InstanceField := ⟨none, .label⟩

def fieldOfArg (arg : FieldArg) : InstanceField :=
  ⟨arg.name?, .ofArg arg⟩

def inputOfArg (arg : InputArg) (fields : List InstanceField) : InstanceInput :=
  ⟨arg.name, arg.kind, arg.align, arg.check, fields⟩

/-- What a token puts into a row: a label for text, or the argument it refers to. -/
inductive Slot where
  | label
  | arg (arg : Arg)
deriving DecidableEq

def outOfRange (number count : Nat) : GenerationError :=
  .invalidSchema ("message0 references %" ++ toString number ++ " but args0 has " ++
    toString count ++ " entries")

def referredTwice (number : Nat) : GenerationError :=
  .invalidSchema ("message0 references %" ++ toString number ++ " more than once")

def notReferred (number : Nat) : GenerationError :=
  .invalidSchema ("message0 does not reference %" ++ toString number)

/-- What the tokens put into rows, given the numbers referred to before. -/
def slotsFrom (args : List Arg) (used : List Nat) :
    List Message.Token → Except GenerationError (List Slot)
  | [] =>
      match (List.range args.length).find? fun i => !used.contains (i + 1) with
      | some i => .error (notReferred (i + 1))
      | none => .ok []
  | .text run :: rest => do
      let slots ← slotsFrom args used rest
      .ok (if Text.trim run = [] then slots else .label :: slots)
  | .reference number :: rest =>
      let number := min number maxReference
      match number, args[number - 1]? with
      | 0, _ => .error (outOfRange number args.length)
      | _, none => .error (outOfRange number args.length)
      | _, some arg =>
          if used.contains number then .error (referredTwice number)
          else do
            let slots ← slotsFrom args (number :: used) rest
            .ok (.arg arg :: slots)

/-- Close a row at every input.  The fields left over form a row of their own. -/
def rowsFrom (lastAlign : Align) : List InstanceField → List Slot → List InstanceInput
  | [], [] => []
  | row, [] => [⟨none, .dummy, lastAlign, none, row⟩]
  | row, .label :: rest => rowsFrom lastAlign (row ++ [plainLabel]) rest
  | row, .arg (.field arg) :: rest => rowsFrom lastAlign (row ++ [fieldOfArg arg]) rest
  | row, .arg (.input arg) :: rest => inputOfArg arg row :: rowsFrom lastAlign [] rest

/-- The block that a descriptor describes. -/
def ofDescriptor (d : Descriptor) : Except GenerationError Instance := do
  let slots ← slotsFrom d.args [] (Message.tokens d.message)
  return {
    blockType := d.blockType
    inputs := rowsFrom (d.lastDummyAlign.getD .left) [] slots
    connections := d.connections }

def hasOutput (block : Instance) : Bool :=
  match block.connections with
  | .output _ => true
  | _ => false

/-- Every field with the input that closes its row, in order. -/
def fields (block : Instance) : List (InstanceInput × InstanceField) :=
  block.inputs.flatMap fun input => input.fields.map fun field => (input, field)

end Instance

end BlockForge
