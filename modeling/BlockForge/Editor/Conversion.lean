import BlockForge.Editor
import BlockForge.Json.Writer
import BlockForge.Word
import BlockForge.Workspace

/-!
Editor trees as workspaces.

A converter may treat blocks of some types as blocks of other types, and either
refuses blocks of unknown types or keeps them as nodes of no special kind.
Blocks are numbered as they are met: a block, then the chains in its slots in
the order of the slot names, then the block that follows it.

The number of members of a type group is one more than the largest number among its
slots.  That sum can be too large for a word, and what happens then is up to how the
program is built (`Build`): the sum wraps around, or the program stops.
-/

namespace BlockForge

/-- The text of a field value that is no array or object. -/
def scalarText? : Json → Option String
  | .text s => some s
  | .number n => some (String.ofList n.text)
  | .bool true => some "TRUE"
  | .bool false => some "FALSE"
  | .null => some ""
  | _ => none

/-- The whole number, of 64 bits and without a sign, that a text writes.  A plus
sign and leading zeros are allowed. -/
def countOf? (cs : List Char) : Option Nat :=
  let digits := match cs with | '+' :: rest => rest | _ => cs
  if digits ≠ [] ∧ digits.all Char.isDigit ∧ digitsValue digits ≤ Word.maxUnsigned then
    some (digitsValue digits)
  else none

/-- The number of a slot named `TYPE` and a number. -/
def typeIndex? (slot : String) : Option Nat :=
  match slot.toList with
  | 'T' :: 'Y' :: 'P' :: 'E' :: digits => countOf? digits
  | _ => none

/-- The field names of the two halves of a dropdown's option. -/
def shownKey (i : Nat) : String := "USER" ++ toString i
def codeKey (i : Nat) : String := "CPU" ++ toString i

/-- The slot name of a member of a type group. -/
def memberSlot (i : Nat) : String := "TYPE" ++ toString i

/-- The number of options before the first one of which neither half is there. -/
def optionCount {α : Type} (fields : Table α) : Nat :=
  ((List.range (fields.size + 1)).find? fun i =>
    !(fields.contains (shownKey i) || fields.contains (codeKey i))).getD 0

/-- The largest number of a member slot. -/
def lastMember? (slots : List String) : Option Nat :=
  (slots.filterMap typeIndex?).max?

/-- How a program is built: what it makes of an error, and how it adds one to a word.  A
sum that does not fit a word may stop the program, and otherwise wraps around; a smaller
sum always fits where a larger one does. -/
structure Build (ε : Type) where
  raise : ConversionError → ε
  succ : Nat → Except ε Nat
  succ_eq : ∀ {n m : Nat}, succ n = .ok m → m = Word.next n
  isOk_succ_of_le : ∀ {m n : Nat}, m ≤ n → (succ n).isOk = true → (succ m).isOk = true

/-- A build whose sums wrap around. -/
def Build.wrapping : Build ConversionError where
  raise e := e
  succ n := .ok (Word.next n)
  succ_eq h := (Except.ok.inj h).symm
  isOk_succ_of_le _ _ := rfl

/-- How a conversion ends in a build that checks its sums, when it gives no workspace: with
an error, or with the program stopped at a sum that is too large. -/
inductive Stop where
  | failed (error : ConversionError)
  | overflow
deriving DecidableEq

/-- A build that checks its sums. -/
def Build.checked : Build Stop where
  raise := .failed
  succ n := if n < Word.maxUnsigned then .ok (n + 1) else .error .overflow
  succ_eq := by
    intro n m h
    split at h
    next hfits =>
      obtain rfl := Except.ok.inj h
      exact (if_pos hfits).symm
    next => cases h
  isOk_succ_of_le := by
    intro m n hle h
    split at h
    next hfits =>
      rw [if_pos (Nat.lt_of_le_of_lt hle hfits)]
      rfl
    next => cases h

namespace Block

/-- The number of parts of a block that does not declare it. -/
def inferredCount {ε : Type} (succ : Nat → Except ε Nat) (block : Block) : Kind → Except ε Nat
  | .dropdownField => .ok (optionCount block.data.fields)
  | .typeGroup =>
      match lastMember? (block.slots.map Prod.fst) with
      | some last => succ last
      | none => .ok 0
  | _ => .ok 0

/-- The first field that holds an array or an object. -/
def compoundField? (block : Block) : Option (String × Json) :=
  block.data.fields.entries.find? fun e => (scalarText? e.2).isNone

/-- The texts of the fields. -/
def fieldTexts (block : Block) : Table String :=
  block.data.fields.map fun value => (scalarText? value).getD ""

/-- What is wrong with a field that holds an array or an object. -/
def compoundFieldError (block : Block) (name : String) (value : Json) : ConversionError :=
  .validation ("field '" ++ name ++ "' of block '" ++ block.data.id.getD block.data.type ++
    "' must be a scalar, found " ++ value.sorted.toCompact)

end Block

/-- How a tree becomes a workspace. -/
structure Converter where
  mapping : Table String := ∅
  strict : Bool := false

namespace Converter

/-- Treat blocks of one type as blocks of another one, if that has a kind. -/
def withMapping (c : Converter) (custom builtin : String) : Converter :=
  match Kind.ofTypeName? builtin with
  | some _ => { c with mapping := c.mapping.insert custom builtin }
  | none => c

/-- The type name that a block is treated as. -/
def typeName (c : Converter) (block : Block) : String :=
  (c.mapping.get? block.data.type).getD block.data.type

/-- The kind of a block's node. -/
def kind (c : Converter) (block : Block) : Except ConversionError Kind :=
  match Kind.ofTypeName? (c.typeName block) with
  | some kind => .ok kind
  | none =>
      if c.strict then .error (.unknownBlockType (block.data.id.getD "") block.data.type)
      else .ok .other

/-- The number of parts of a block, declared or inferred. -/
def itemCount {ε : Type} (b : Build ε) (block : Block) (kind : Kind) : Except ε Nat :=
  match block.data.itemCount with
  | some count => .ok count
  | none => block.inferredCount b.succ kind

/-- The node of a block of some kind and with some parts, without its links. -/
def bare (c : Converter) (block : Block) (kind : Kind) (count : Nat) : Node where
  kind := kind
  typeName := c.typeName block
  fields := block.fieldTexts
  disabled := block.data.disabled
  valueType := block.data.valueType.or (builtinValueType? (c.typeName block))
  itemCount := count

/-- The node of a block, without its links. -/
def node {ε : Type} (b : Build ε) (c : Converter) (block : Block) : Except ε Node := do
  let kind ← (c.kind block).mapError b.raise
  match block.compoundField? with
  | some (name, value) => .error (b.raise (block.compoundFieldError name value))
  | none => return c.bare block kind (← itemCount b block kind)

section Place

variable {ε : Type} (b : Build ε)

mutual

/-- Add a block with everything below and after it, and give its number. -/
def place (c : Converter) : Block → Workspace → Except ε (NodeId × Workspace)
  | .mk data slots next, ws => do
      let node ← c.node b (.mk data slots next)
      let id := ws.size
      let ws ← c.placeSlots id slots (ws.add node)
      let ws ← c.placeNext id next ws
      .ok (id, ws)

/-- Add the chains in the slots of a node. -/
def placeSlots (c : Converter) (owner : NodeId) :
    List (String × Block) → Workspace → Except ε Workspace
  | [], ws => .ok ws
  | (slot, block) :: rest, ws => do
      let (child, ws) ← c.place block ws
      let ws ← (ws.attach owner slot child).mapError b.raise
      c.placeSlots owner rest ws

/-- Add the block that follows a node, if there is one. -/
def placeNext (c : Converter) (prev : NodeId) :
    Option Block → Workspace → Except ε Workspace
  | none, ws => .ok ws
  | some block, ws => do
      let (id, ws) ← c.place block ws
      (ws.link prev id).mapError b.raise

end

/-- Add chains on the surface. -/
def placeAll (c : Converter) : List Block → Workspace → Except ε Workspace
  | [], ws => .ok ws
  | block :: rest, ws => do
      let (id, ws) ← c.place b block ws
      c.placeAll rest (ws.placeOnTop id)

/-- The workspace of a tree, in some build. -/
def convertIn (c : Converter) (tree : EditorTree) : Except ε Workspace :=
  c.placeAll b tree.blocks .empty

end Place

/-- The workspace of a tree, where sums wrap around. -/
def convert (c : Converter) (tree : EditorTree) : Except ConversionError Workspace :=
  c.convertIn .wrapping tree

end Converter

end BlockForge
