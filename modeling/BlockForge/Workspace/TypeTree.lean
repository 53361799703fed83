import BlockForge.Editor.Conversion
import BlockForge.Text.Blank
import BlockForge.TypeExpression

/-!
Type trees: the blocks plugged into a slot that wants a type.

A group stands for the types in its numbered slots, a block of kind `typeOther`
for the name typed into it, and any other block for its value type or, without
one, for any type.  An empty slot and one of which the owner or the occupant is
not enabled stand for nothing.
-/

namespace BlockForge

/-- Why a text is no type name, if it is none. -/
def typeNameFlaw? (text : String) : Option String :=
  if Text.allBlank text then some "type name is empty"
  else if Text.trimmed text ≠ text then some "type name has surrounding whitespace"
  else if text.toList.any Text.isControl then some "type name contains control characters"
  else none

/-- A type name as a JSON text. -/
def encodedTypeName (name : String) : String :=
  String.ofList (Json.quote name)

/-- The names that a node other than a group stands for. -/
def Node.typeNames (node : Node) : Except GenerationError (List String) :=
  match node.kind with
  | .typeOther =>
      let text := node.text "TYPE"
      match typeNameFlaw? text with
      | some reason => .error (.malformedType text reason)
      | none => .ok [encodedTypeName text]
  | _ =>
      match node.valueType with
      | some name => .ok [encodedTypeName name]
      | none => .ok [anyType]

namespace Workspace

/-- The names that the tree in a slot stands for, down to so many groups. -/
def typeNamesWithin (ws : Workspace) :
    Nat → NodeId → String → Except GenerationError (List String)
  | 0, _, _ => .ok []
  | depth + 1, owner, slot =>
      match ws.slot? owner slot with
      | none => .ok []
      | some child =>
          if ws.isEnabled owner && ws.isEnabled child then
            match ws.node? child with
            | none => .ok []
            | some node =>
                match node.kind with
                | .typeGroup => do
                    let members ← (List.range node.itemCount).mapM fun i =>
                      ws.typeNamesWithin depth child (memberSlot i)
                    .ok members.flatten.eraseDups
                | _ => node.typeNames
          else .ok []

/-- The type expression of the tree in a slot. -/
def typeExpression (ws : Workspace) (owner : NodeId) (slot : String) :
    Except GenerationError TypeExpression :=
  (ws.typeNamesWithin ws.size owner slot).map TypeExpression.ofNames

/-- The constraint of the tree in a slot. -/
def typeConstraint (ws : Workspace) (owner : NodeId) (slot : String) :
    Except GenerationError (Option Constraint) := do
  (← ws.typeExpression owner slot).constraint

end Workspace

end BlockForge
