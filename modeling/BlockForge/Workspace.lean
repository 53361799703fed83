import BlockForge.ConversionError
import BlockForge.Table
import BlockForge.Workspace.Kind

/-!
Workspaces: the blocks of an editor as numbered nodes.

No node owns another one.  A node's slots and its `next` link lead forwards to
other nodes by number, and its `parent` and `prev` links lead backwards.  A slot
or `next` link that is set stays as it is.

The walks below follow links for at most as many steps as there are nodes, which
is enough wherever the links close no cycle.
-/

namespace BlockForge

/-- The place of a node in its workspace. -/
abbrev NodeId := Nat

/-- One block. -/
structure Node where
  kind : Kind
  typeName : String
  fields : Table String := ∅
  disabled : Bool := false
  valueType : Option String := none
  /-- The number of a dropdown's options or of a type group's members. -/
  itemCount : Nat := 0
  parent : Option NodeId := none
  prev : Option NodeId := none
  next : Option NodeId := none
  slots : Table NodeId := ∅
deriving DecidableEq

/-- The text of a field. -/
def Node.field? (node : Node) (name : String) : Option String :=
  node.fields.get? name

/-- The text of a field, or the empty text. -/
def Node.text (node : Node) (name : String) : String :=
  (node.field? name).getD ""

/-- The nodes in the order of their numbers, and the ones that head the chains on
the editor's surface. -/
structure Workspace where
  nodes : Array Node := #[]
  top : List NodeId := []
deriving DecidableEq

namespace Workspace

def empty : Workspace := {}

/-- The number of nodes. -/
def size (ws : Workspace) : Nat :=
  ws.nodes.size

def node? (ws : Workspace) (id : NodeId) : Option Node :=
  ws.nodes[id]?

/-- Add a node that nothing is linked with; its number is the old size. -/
def add (ws : Workspace) (node : Node) : Workspace :=
  { ws with nodes := ws.nodes.push node }

/-- Put a node on the surface, once. -/
def placeOnTop (ws : Workspace) (id : NodeId) : Workspace :=
  if id ∈ ws.top then ws else { ws with top := ws.top ++ [id] }

/-- Add a node that lies on the surface. -/
def addTop (ws : Workspace) (node : Node) : Workspace :=
  { ws.add node with top := ws.top ++ [ws.size] }

/-- Change one node. -/
def update (ws : Workspace) (id : NodeId) (change : Node → Node) : Workspace :=
  { ws with nodes := ws.nodes.modify id change }

/-- The node in a slot of another one. -/
def slot? (ws : Workspace) (id : NodeId) (name : String) : Option NodeId :=
  (ws.node? id).bind fun node => node.slots.get? name

/-- The node after another one in its chain. -/
def next? (ws : Workspace) (id : NodeId) : Option NodeId :=
  (ws.node? id).bind Node.next

/-- The text of a field of a node. -/
def field? (ws : Workspace) (id : NodeId) (name : String) : Option String :=
  (ws.node? id).bind fun node => node.field? name

/-- Whether a node itself is switched off. -/
def isDisabled (ws : Workspace) (id : NodeId) : Bool :=
  (ws.node? id).any Node.disabled

/-- Plug a node into a free slot of another one. -/
def attach (ws : Workspace) (owner : NodeId) (slot : String) (child : NodeId) :
    Except ConversionError Workspace :=
  if (ws.slot? owner slot).isSome then .error (.slotOccupied owner slot)
  else
    .ok ((ws.update owner fun node => { node with slots := node.slots.insert slot child }).update
      child fun node => { node with parent := some owner })

/-- Put a node after another one that has none after it. -/
def link (ws : Workspace) (prev next : NodeId) : Except ConversionError Workspace :=
  if (ws.next? prev).isSome then .error (.slotOccupied prev "next")
  else
    .ok ((ws.update prev fun node => { node with next := some next }).update
      next fun node => { node with prev := some prev })

/-- The first container on the surface. -/
def root? (ws : Workspace) : Option NodeId :=
  ws.top.find? fun id => (ws.node? id).any fun node => node.kind == .container

/-- Follow `prev` links backwards until a node has a parent, for so many steps. -/
def surroundingWithin (ws : Workspace) : Nat → NodeId → Option NodeId
  | 0, _ => none
  | steps + 1, id =>
      match ws.node? id with
      | none => none
      | some node =>
          match node.parent, node.prev with
          | some parent, _ => some parent
          | none, some prev => ws.surroundingWithin steps prev
          | none, none => none

/-- The node one of whose slots holds the chain in which a node lies. -/
def surrounding? (ws : Workspace) (id : NodeId) : Option NodeId :=
  ws.surroundingWithin ws.size id

/-- Whether a node and the nodes around it are switched on, for so many steps. -/
def enabledWithin (ws : Workspace) : Nat → NodeId → Bool
  | 0, _ => true
  | steps + 1, id =>
      if ws.isDisabled id then false
      else
        match ws.surrounding? id with
        | some parent => ws.enabledWithin steps parent
        | none => true

/-- Whether neither a node nor any node around it is switched off. -/
def isEnabled (ws : Workspace) (id : NodeId) : Bool :=
  ws.enabledWithin ws.size id

/-- The nodes of a chain from its head on, for so many steps. -/
def chainWithin (ws : Workspace) : Nat → Option NodeId → List NodeId
  | 0, _ => []
  | _ + 1, none => []
  | steps + 1, some id => id :: ws.chainWithin steps (ws.next? id)

/-- The nodes of a chain from its head on. -/
def chain (ws : Workspace) (head : Option NodeId) : List NodeId :=
  ws.chainWithin ws.size head

theorem node?_add (ws : Workspace) (node : Node) (id : NodeId) :
    (ws.add node).node? id = if id = ws.size then some node else ws.node? id := by
  rw [node?, add, Array.getElem?_push]
  rfl

theorem size_add (ws : Workspace) (node : Node) : (ws.add node).size = ws.size + 1 := by
  simp [add, size]

theorem size_update (ws : Workspace) (id : NodeId) (change : Node → Node) :
    (ws.update id change).size = ws.size := by
  simp [update, size]

theorem node?_update (ws : Workspace) (id id' : NodeId) (change : Node → Node) :
    (ws.update id change).node? id' =
      if id = id' then (ws.node? id').map change else ws.node? id' := by
  simp [node?, update, Array.getElem?_modify]

end Workspace

end BlockForge
