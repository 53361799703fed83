import BlockForge.Definition
import BlockForge.Proofs.Placement

/-!
The definition of a container, read off the tree.

Compiling asks a workspace for chains, enabled nodes and type trees.  In a converted
tree each answer is a recursion over the blocks in the slots of the container
(`compile_convert`), so nothing else in the workspace has a say in it.
-/

namespace BlockForge

/-- The blocks in a slot that are switched on, provided that their owner is enabled. -/
def Block.shown (on : Bool) (block : Block) (name : String) : List Block :=
  (block.chainIn name).filter fun b => on && !b.data.disabled

namespace Converter

/-- A block is a container when the type it is treated as says so. -/
def isContainer (c : Converter) (block : Block) : Bool :=
  Kind.ofTypeName? (c.typeName block) == some .container

/-- The tokens of the fields of an enabled input. -/
def tokens (c : Converter) (input : Block) : List FieldToken :=
  (input.shown true "FIELDS").filterMap fun field => (c.look field).token?

mutual

/-- The names that a type tree stands for below an enabled block. -/
def typeNames (c : Converter) : Block → Except GenerationError (List String)
  | .mk data slots next =>
      if data.disabled then .ok []
      else
        (c.look (.mk data slots next)).namesWith fun name =>
          (Table.find name (c.typeNamesInSlots slots)).getD (.ok [])

def typeNamesInSlots (c : Converter) :
    List (String × Block) → List (String × Except GenerationError (List String))
  | [] => []
  | (name, block) :: rest => (name, c.typeNames block) :: c.typeNamesInSlots rest

end

/-- The names in a slot of a block that is enabled or not. -/
def typeNamesIn (c : Converter) (on : Bool) (block : Block) (name : String) :
    Except GenerationError (List String) :=
  if on then ((block.slot? name).map c.typeNames).getD (.ok []) else .ok []

/-- The constraint in a slot of a block that is enabled or not. -/
def typeConstraint (c : Converter) (on : Bool) (block : Block) (name : String) :
    Except GenerationError (Option Constraint) := do
  (← (c.typeNamesIn on block name).map TypeExpression.ofNames).constraint

/-- The row of an enabled input. -/
def row (c : Converter) (input : Block × InputKind) : Except GenerationError Row := do
  let (block, kind) := input
  let check ← c.typeConstraint true block "TYPE"
  return {
    tokens := c.tokens block
    input := {
      kind := kind
      name := Workspace.inputName (c.look block) kind
      check := check.filter fun c => c ≠ .any
      align := .ofField ((c.look block).field? "ALIGN") } }

/-- The enabled inputs of a container. -/
def inputs (c : Converter) (root : Block) : List (Block × InputKind) :=
  (root.shown (!root.data.disabled) "INPUTS").filterMap fun block =>
    (c.look block).kind.input?.map fun kind => (block, kind)

/-- The connections that a container selects. -/
def connections (c : Converter) (root : Block) : Except GenerationError Connections :=
  let constraint := c.typeConstraint (!root.data.disabled) root
  match ConnectionShape.ofField ((c.look root).field? "CONNECTIONS") with
  | .output => do return .output (← constraint "OUTPUTTYPE")
  | .both => do
      let previous ← constraint "TOPTYPE"
      let next ← constraint "BOTTOMTYPE"
      return .statement previous next
  | .top => do return .statement (← constraint "TOPTYPE") none
  | .bottom => do return .statement none (← constraint "BOTTOMTYPE")
  | .none => return .none

/-- How a container wants its inputs laid out, if it says so. -/
def inputsInline? (c : Converter) (root : Block) : Option Bool :=
  match (c.look root).field? "INLINE" with
  | some "EXT" => some false
  | some "INT" => some true
  | _ => none

/-- The hue of a container's colour block. -/
def hue? (c : Converter) (root : Block) : Option Int :=
  match root.slot? "COLOUR" with
  | some colour =>
      if !root.data.disabled && !colour.data.disabled then
        FieldNumber.leadingInt? (((c.look colour).field? "HUE").getD "")
      else none
  | none => none

end Converter

/-- The descriptor that a container block defines. -/
def Compiler.define (comp : Compiler) (c : Converter) (root : Block) :
    Except GenerationError Descriptor := do
  let rows ← (c.inputs root).mapM c.row
  let connections ← c.connections root
  let parts := rowParts rows
  let descriptor : Descriptor := {
    blockType := Text.identifier (((c.look root).field? "NAME").getD "")
    lastDummyAlign := droppedAlign? rows
    message := MessagePart.message parts
    args := parts.filterMap MessagePart.arg?
    inputsInline := c.inputsInline? root
    colour := c.hue? root
    tooltip := comp.tooltip
    helpUrl := comp.helpUrl }
  return descriptor.withConnections connections

namespace Converter

variable {c : Converter} {ws : Workspace}

namespace Stands

variable {surrounding : Option NodeId} {id : NodeId} {block : Block}

/-- A block that stands below an enabled node is enabled when it is switched on. -/
theorem isEnabled (hgraded : ws.Graded fun id => id) (h : c.Stands ws surrounding id block) :
    ws.isEnabled id = (surrounding.all ws.isEnabled && !block.data.disabled) := by
  obtain ⟨node, hnode, hbare⟩ := h.node?
  have hdisabled : ws.isDisabled id = block.data.disabled := by
    rw [Workspace.isDisabled, hnode]
    exact congrArg Node.disabled hbare
  rw [hgraded.isEnabled_eq (Workspace.lt_size_of_node? hnode), hdisabled, h.surrounding,
    Bool.and_comm]

/-- The enabled nodes of the chain in a slot are the blocks that are switched on. -/
theorem shown (hgraded : ws.Graded fun id => id) (h : c.Stands ws surrounding id block)
    (name : String) :
    List.Forall₂ (c.Stands ws (some id))
      ((ws.chain (ws.slot? id name)).filter ws.isEnabled) (block.shown (ws.isEnabled id) name) := by
  refine List.rel_filter ?_ (h.chainIn hgraded name)
  intro id' block' hstands
  change ws.isEnabled id' = true ↔ (ws.isEnabled id && !block'.data.disabled) = true
  rw [hstands.isEnabled hgraded]
  rfl

theorem field? (h : c.Stands ws surrounding id block) (name : String) :
    ws.field? id name = (c.look block).field? name := by
  obtain ⟨node, hnode, hbare⟩ := h.node?
  rw [Workspace.field?, hnode, ← hbare]
  rfl

/-- The tokens of an enabled input. -/
theorem fieldTokens (hgraded : ws.Graded fun id => id) (h : c.Stands ws surrounding id block)
    (hon : ws.isEnabled id = true) :
    ws.fieldTokens (ws.slot? id "FIELDS") = c.tokens block := by
  have hshown := h.shown hgraded "FIELDS"
  rw [hon] at hshown
  refine filterMap_eq_of_forall₂ hshown ?_
  intro id' block' hstands
  obtain ⟨node, hnode, hbare⟩ := hstands.node?
  rw [hnode, ← hbare]
  rfl

end Stands

theorem find_typeNamesInSlots (slots : List (String × Block)) (name : String) :
    Table.find name (c.typeNamesInSlots slots) = (Table.find name slots).map c.typeNames := by
  induction slots with
  | nil => rfl
  | cons slot rest ih =>
      obtain ⟨key, block⟩ := slot
      rw [typeNamesInSlots, Table.find, Table.find]
      split
      next => rfl
      next => exact ih

/-- The names that a workspace finds in a slot of an enabled node. -/
theorem Heads.typeNamesWithin (hgraded : ws.Graded fun id => id) {owner head : NodeId}
    {name : String} {child : Block} (howner : ws.isEnabled owner = true)
    (hslot : ws.slot? owner name = some head) (h : Heads c ws (some owner) none head child) :
    ws.typeNamesWithin ws.size owner name = c.typeNames child := by
  induction child using Block.induct generalizing owner head name with
  | mk data slots next hslots _ =>
      have hstands := h.stands hgraded
      have hon : ws.isEnabled head = !data.disabled := by
        rw [hstands.isEnabled hgraded, Option.all_some, howner]
        rfl
      obtain ⟨node, hnode, hbare⟩ := hstands.node?
      rw [hgraded.typeNamesWithin_size, Workspace.typeNamesStep, hslot, typeNames, howner]
      dsimp only
      rw [hon, hnode]
      dsimp only
      cases hdisabled : data.disabled with
      | true => rfl
      | false =>
          rw [hdisabled] at hon
          -- The head is enabled, so it is an owner for which the hypothesis holds.
          have hmembers : ws.typeNamesWithin ws.size head =
              fun name => (Table.find name (c.typeNamesInSlots slots)).getD (.ok []) := by
            funext name
            have hrel := hstands.slot_rel name
            rw [find_typeNamesInSlots]
            change Option.Rel _ (ws.slot? head name) (Table.find name slots) at hrel
            generalize hhead : ws.slot? head name = below at hrel
            generalize hchild : Table.find name slots = child at hrel ⊢
            cases hrel with
            | none => exact Workspace.typeNamesWithin_of_slot_eq_none _ hhead
            | some hheads => exact hslots _ (Table.mem_of_find hchild) hon hhead hheads
          rw [hmembers, ← hbare]
          rfl

/-- The names that a workspace finds in a slot. -/
theorem Stands.typeNamesIn (hgraded : ws.Graded fun id => id) {surrounding : Option NodeId}
    {id : NodeId} {block : Block} (h : c.Stands ws surrounding id block) (name : String) :
    ws.typeNamesWithin ws.size id name = c.typeNamesIn (ws.isEnabled id) block name := by
  have hrel := h.slot_rel name
  rw [Converter.typeNamesIn]
  generalize hhead : ws.slot? id name = head at hrel
  generalize hchild : block.slot? name = child at hrel ⊢
  cases hrel with
  | none =>
      rw [Workspace.typeNamesWithin_of_slot_eq_none _ hhead]
      split <;> rfl
  | some hheads =>
      cases hon : ws.isEnabled id with
      | true => exact hheads.typeNamesWithin hgraded hon hhead
      | false =>
          rw [hgraded.typeNamesWithin_size, Workspace.typeNamesStep, hhead, hon]
          rfl

theorem Stands.typeConstraint (hgraded : ws.Graded fun id => id) {surrounding : Option NodeId}
    {id : NodeId} {block : Block} (h : c.Stands ws surrounding id block) (name : String) :
    ws.typeConstraint id name = c.typeConstraint (ws.isEnabled id) block name := by
  rw [Workspace.typeConstraint, Workspace.typeExpression, h.typeNamesIn hgraded]
  rfl

/-- An input node and its block, both enabled. -/
structure StandsInput (c : Converter) (ws : Workspace) (input : NodeId × Node × InputKind)
    (source : Block × InputKind) : Prop where
  stands : ∃ surrounding, c.Stands ws surrounding input.1 source.1
  enabled : ws.isEnabled input.1 = true
  node : input.2.1.bare = c.look source.1
  kind : input.2.2 = source.2

/-- The row of an input node is that of its block. -/
theorem StandsInput.row (hgraded : ws.Graded fun id => id) {input : NodeId × Node × InputKind}
    {source : Block × InputKind} (h : c.StandsInput ws input source) :
    ws.row input = c.row source := by
  obtain ⟨id, node, kind⟩ := input
  obtain ⟨block, kind'⟩ := source
  obtain ⟨⟨surrounding, hstands⟩, hon, hbare, hkind⟩ := h
  dsimp only at hstands hon hbare hkind
  subst hkind
  rw [Workspace.row, Converter.row]
  rw [hstands.typeConstraint hgraded, hon, hstands.fieldTokens hgraded hon, ← hbare]
  rfl

/-- The enabled inputs of a container's node are those of the container. -/
theorem Stands.inputs (hgraded : ws.Graded fun id => id) {id : NodeId} {root : Block}
    (h : c.Stands ws none id root) :
    List.Forall₂ (c.StandsInput ws) (ws.inputs id) (c.inputs root) := by
  have hon : ws.isEnabled id = !root.data.disabled := h.isEnabled hgraded
  have hshown := h.shown hgraded "INPUTS"
  rw [hon] at hshown
  have hmem : ∀ id' ∈ (ws.chain (ws.slot? id "INPUTS")).filter ws.isEnabled,
      ws.isEnabled id' = true := fun id' hid' => (List.mem_filter.1 hid').2
  have hboth := (List.forall₂_and_left _ _).2 ⟨hmem, hshown⟩
  refine List.rel_filterMap ?_ hboth
  rintro id' block ⟨hon', hstands⟩
  obtain ⟨node, hnode, hbare⟩ := hstands.node?
  dsimp only
  rw [hnode, Option.bind_some, ← hbare]
  change Option.Rel _ (node.kind.input?.map _) (node.kind.input?.map _)
  cases node.kind.input? with
  | none => exact .none
  | some kind => exact .some ⟨⟨_, hstands⟩, hon', hbare, rfl⟩

theorem Stands.rows (hgraded : ws.Graded fun id => id) {id : NodeId} {root : Block}
    (h : c.Stands ws none id root) : ws.rows id = (c.inputs root).mapM c.row :=
  mapM_eq_of_forall₂ (h.inputs hgraded) fun _ _ hinput => hinput.row hgraded

theorem Stands.connections (hgraded : ws.Graded fun id => id) {id : NodeId} {root : Block}
    (h : c.Stands ws none id root) : ws.connections id = c.connections root := by
  have hon : ws.isEnabled id = !root.data.disabled := h.isEnabled hgraded
  have hconstraint : ws.typeConstraint id = c.typeConstraint (!root.data.disabled) root := by
    funext name
    rw [h.typeConstraint hgraded, hon]
  rw [Workspace.connections, h.field?, hconstraint]
  rfl

theorem Stands.hue? (hgraded : ws.Graded fun id => id) {id : NodeId} {root : Block}
    (h : c.Stands ws none id root) : ws.hue? id = c.hue? root := by
  have hon : ws.isEnabled id = !root.data.disabled := h.isEnabled hgraded
  have hrel := h.slot_rel "COLOUR"
  rw [Workspace.hue?, Converter.hue?]
  generalize ws.slot? id "COLOUR" = head at hrel ⊢
  generalize root.slot? "COLOUR" = colour at hrel ⊢
  cases hrel with
  | none => rfl
  | some hheads =>
      have hstands := hheads.stands hgraded
      dsimp only
      rw [hstands.isEnabled hgraded, hstands.field?, Option.all_some, hon]

/-- Assembling a container's node gives the container's descriptor. -/
theorem Stands.assemble (comp : Compiler) (hgraded : ws.Graded fun id => id) {id : NodeId}
    {root : Block} (h : c.Stands ws none id root) : comp.assemble ws id = comp.define c root := by
  rw [Compiler.assemble, Compiler.define, h.rows hgraded, h.connections hgraded,
    h.hue? hgraded, h.field?, Workspace.inputsInline?, h.field?]
  rfl

theorem kind_eq_container_iff {block : Block} :
    ((c.look block).kind == .container) = c.isContainer block := by
  rw [isContainer, kind_look, kindOf]
  cases Kind.ofTypeName? (c.typeName block) with
  | none => rfl
  | some kind => rfl

/-- Compiling a converted tree gives the descriptor of the first container on its
surface. -/
theorem compile_convert {ε : Type} {b : Build ε} (comp : Compiler) {tree : EditorTree}
    (h : c.convertIn b tree = .ok ws) :
    comp.compile ws =
      match tree.blocks.find? c.isContainer with
      | some root => comp.define c root
      | none => .error (if tree.blocks.isEmpty then .emptyInput else .missingRoot) := by
  have hplaced := placed_of_convert h
  have hroot : Option.Rel (Heads c ws none none) ws.root? (tree.blocks.find? c.isContainer) := by
    refine find?_rel_of_forall₂ hplaced.top ?_
    intro id block hheads
    rw [hheads.node?]
    exact kind_eq_container_iff
  rw [Compiler.compile]
  generalize ws.root? = id at hroot ⊢
  generalize tree.blocks.find? c.isContainer = root at hroot ⊢
  cases hroot with
  | none =>
      have hempty := hplaced.size_eq_zero_iff
      cases hblocks : tree.blocks with
      | nil => rw [if_pos (hempty.2 hblocks), List.isEmpty_nil, if_pos rfl]
      | cons block rest =>
          rw [if_neg fun hsize => nomatch hblocks.symm.trans (hempty.1 hsize)]
          rfl
  | some hheads =>
      have hlt := Workspace.lt_size_of_node? hheads.node?
      rw [if_neg fun hsize => Nat.not_lt_zero _ (hsize ▸ hlt)]
      exact (hheads.stands hplaced.graded).assemble comp hplaced.graded

theorem compile_of_find? {ε : Type} {b : Build ε} (comp : Compiler) {tree : EditorTree}
    {root : Block} (h : c.convertIn b tree = .ok ws)
    (hroot : tree.blocks.find? c.isContainer = some root) :
    comp.compile ws = comp.define c root := by
  rw [compile_convert comp h, hroot]

end Converter

end BlockForge
