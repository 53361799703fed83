import BlockForge.ConversionError
import BlockForge.Editor
import BlockForge.Json.Reader

/-!
Editor trees from JSON text.
-/

namespace BlockForge

open Json (Draft Fault Entry)

/-- What was read of a block so far. -/
structure Block.Parts where
  type : Option String := none
  id : Option (Option String) := none
  fields : Option (List (String × Json)) := none
  disabled : Option Bool := none
  slots : Option (List (String × Block)) := none
  next : Option (Option Block) := none
  itemCount : Option (Option Nat) := none
  valueType : Option (Option String) := none

namespace Block

/-- The number of parts that a block declares, wanted in a record of its own. -/
def itemEntries : List (Entry (Option Nat)) :=
  [{ name := "items", aliases := ["optionCount", "typeCount"], required := true
     isSet := Option.isSome
     read := fun _ _ v => do return some (← v.asCount) }]

def readItemCount (levels : Nat) (draft : Draft) : Except Fault Nat :=
  (draft.asRecord "struct EditorMutation" itemEntries none levels).map fun n => n.getD 0

/-- The entries of a block in their order, given how a block that follows and one
in a slot are read. -/
def entries (readNext readSlot : Draft → Except Fault Block) : List (Entry Parts) :=
  [{ name := "type", required := true, isSet := (·.type.isSome)
     read := fun _ p v => do return { p with type := some (← v.asText) } },
   { name := "id", isSet := (·.id.isSome)
     read := fun _ p v => do return { p with id := some (← v.asOptional Draft.asText) } },
   { name := "fields", isSet := (·.fields.isSome)
     read := fun n p v => do return { p with fields := some (← v.asMap n Draft.toJson) } },
   { name := "disabled", isSet := (·.disabled.isSome)
     read := fun _ p v => do return { p with disabled := some (← v.asBool) } },
   { name := "inputs", isSet := (·.slots.isSome)
     read := fun n p v => do return { p with slots := some (← v.asMap n fun _ => readSlot) } },
   { name := "next", isSet := (·.next.isSome)
     read := fun _ p v => do return { p with next := some (← v.asOptional readNext) } },
   { name := "mutation", isSet := (·.itemCount.isSome)
     read := fun n p v => do
       return { p with itemCount := some (← v.asOptional (readItemCount n)) } },
   { name := "value_type", aliases := ["valueType"], isSet := (·.valueType.isSome)
     read := fun _ p v => do return { p with valueType := some (← v.asOptional Draft.asText) } }]

/-- The block of the entries that were read; the others have their defaults. -/
def ofParts (p : Parts) : Block :=
  .mk
    { type := p.type.getD ""
      id := p.id.join
      fields := .ofList (p.fields.getD [])
      disabled := p.disabled.getD false
      itemCount := p.itemCount.join
      valueType := p.valueType.join }
    (p.slots.getD []) p.next.join

/-- No block fits where nothing may nest any more. -/
def tooDeep (_ : Draft) : Except Fault Block :=
  .error .tooDeep

/-- A block.  The block after it lies one level deeper, and a block in one of its
slots two. -/
def read : Nat → Draft → Except Fault Block
  | 0, draft =>
      (draft.asRecord "struct EditorBlock" (entries tooDeep tooDeep) {} 0).map ofParts
  | 1, draft =>
      (draft.asRecord "struct EditorBlock" (entries (read 0) tooDeep) {} 1).map ofParts
  | n + 2, draft =>
      (draft.asRecord "struct EditorBlock" (entries (read (n + 1)) (read n)) {} (n + 2)).map
        ofParts

end Block

namespace EditorTree

/-- The one entry of a tree. -/
def entries : List (Entry (Option (List Block))) :=
  [{ name := "blocks", required := true, isSet := Option.isSome
     read := fun n _ v => do return some (← v.asList n Block.read) }]

def read (levels : Nat) (draft : Draft) : Except Fault EditorTree :=
  (draft.asRecord "struct EditorTree" entries none levels).map fun blocks =>
    ofBlocks (blocks.getD [])

/-- The tree in a text. -/
def ofText (text : String) : Except ConversionError EditorTree :=
  (Json.readText text read).mapError fun fault => .validation ("invalid tree: " ++ fault.message)

end EditorTree

end BlockForge
