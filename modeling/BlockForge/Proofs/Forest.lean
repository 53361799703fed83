import BlockForge.Proofs.Nodes

/-!
A converted tree is a forest of nodes.

Following slots and `next` links from the nodes on the surface visits every node once,
in the order of the numbers, and finds the tree again (`Rebuilds`).  The links backwards
say in which slot a node lies, and the walks along them end by themselves.
-/

namespace BlockForge

/-- Nested labels: the label of a block, the outlines in its slots, and the outline of
what follows. -/
inductive Outline (α : Type) where
  | mk (label : α) (slots : List (String × Outline α)) (next : Option (Outline α))

namespace Outline

variable {α : Type}

mutual

/-- The label of the block, of the blocks below it and of the blocks after it. -/
def labels : Outline α → List α
  | mk label slots next => label :: (labelsInSlots slots ++ labelsNext next)

def labelsInSlots : List (String × Outline α) → List α
  | [] => []
  | (_, outline) :: rest => outline.labels ++ labelsInSlots rest

def labelsNext : Option (Outline α) → List α
  | none => []
  | some outline => outline.labels

end

end Outline

namespace Converter

mutual

/-- An outline of nodes rebuilds a block: its node says what the block does, its slots have
the same names in the same order, and the outlines in them and after it rebuild the blocks
there. -/
def Rebuilds (c : Converter) : Outline (NodeId × Node) → Block → Prop
  | .mk label slots next, .mk data slots' next' =>
      c.Says (.mk data slots' next') label.2 ∧ c.RebuildsSlots slots slots' ∧
        c.RebuildsNext next next'

def RebuildsSlots (c : Converter) :
    List (String × Outline (NodeId × Node)) → List (String × Block) → Prop
  | [], [] => True
  | (name, outline) :: rest, (name', block) :: rest' =>
      name = name' ∧ c.Rebuilds outline block ∧ c.RebuildsSlots rest rest'
  | _, _ => False

def RebuildsNext (c : Converter) : Option (Outline (NodeId × Node)) → Option Block → Prop
  | none, none => True
  | some outline, some block => c.Rebuilds outline block
  | _, _ => False

end

end Converter

namespace Workspace

/-- Follow the slots and the `next` link of a node as far as they lead; nothing, if they
lead to more steps than allowed or to no node. -/
def walkWithin (ws : Workspace) : Nat → NodeId → Option (Outline (NodeId × Node))
  | 0, _ => none
  | steps + 1, id => do
      let node ← ws.node? id
      let slots ← node.slots.entries.mapM fun e => do
        let below ← ws.walkWithin steps e.2
        return (e.1, below)
      match node.next with
      | none => return .mk (id, node) slots none
      | some after => do
          let following ← ws.walkWithin steps after
          return .mk (id, node) slots (some following)

/-- Follow the slots and the `next` link of a node as far as they lead. -/
def walk (ws : Workspace) (id : NodeId) : Option (Outline (NodeId × Node)) :=
  ws.walkWithin ws.size id

/-- A node lies in a chain in a slot of the given node, or else on the surface. -/
def LiesIn (ws : Workspace) (surrounding : Option NodeId) (id : NodeId) : Prop :=
  match surrounding with
  | none => ∃ head ∈ ws.top, id ∈ ws.chain (some head)
  | some owner => ∃ name head, ws.slot? owner name = some head ∧ id ∈ ws.chain (some head)

/-- The walks end by themselves: each one is its first step and the walk from there. -/
structure WalksEnd (ws : Workspace) : Prop where
  chain : ∀ id < ws.size, ws.chain (some id) = id :: ws.chain (ws.next? id)
  surrounding : ∀ id node, ws.node? id = some node →
    ws.surrounding? id = node.parent.or (node.prev.bind ws.surrounding?)
  enabled : ∀ id < ws.size,
    ws.isEnabled id = (!ws.isDisabled id && (ws.surrounding? id).all ws.isEnabled)
  typeNames : ∀ owner slot, ws.typeNamesWithin ws.size owner slot =
    ws.typeNamesStep (ws.typeNamesWithin ws.size) owner slot

theorem Graded.walksEnd {ws : Workspace} {rank : NodeId → Nat} (h : ws.Graded rank) :
    ws.WalksEnd where
  chain := fun _ hid => h.chain_some hid
  surrounding := fun _ _ hnode => h.surrounding?_eq hnode
  enabled := fun _ hid => h.isEnabled_eq hid
  typeNames := h.typeNamesWithin_size

end Workspace

namespace Converter

variable {c : Converter} {ws : Workspace} {blocks : List Block}

/-- A converted tree as a forest of nodes. -/
structure Forest (c : Converter) (tree : EditorTree) (ws : Workspace) : Prop where
  size : ws.size = tree.all.length
  top_length : ws.top.length = tree.blocks.length
  top_nodup : ws.top.Nodup
  /-- Following the links from the nodes on the surface finds every node once, in the
  order of the numbers, and the tree block by block. -/
  walk : ∃ forest, ws.top.mapM ws.walk = some forest ∧
    (forest.flatMap Outline.labels).map Prod.fst = List.range ws.size ∧
    List.Forall₂ c.Rebuilds forest tree.blocks
  /-- All links forwards lead to larger numbers and all links backwards to smaller ones. -/
  graded : ws.Graded fun id => id
  walksEnd : ws.WalksEnd
  surrounding : ∀ id < ws.size, ∀ owner, ws.surrounding? id = owner ↔ ws.LiesIn owner id

/-- Nodes lie where the walk backwards from them ends. -/
theorem Placed.liesIn (h : c.Placed blocks ws) {id : Nat} (hid : id < ws.size) :
    ws.LiesIn (ws.surrounding? id) id := by
  have hgraded := h.graded
  induction id using Nat.strongRecOn with
  | ind id ih =>
      obtain ⟨parent, prev, block, hheads⟩ := h.exists_heads id hid
      have hself : id ∈ ws.chain (some id) := by
        rw [hgraded.chain_some hid]
        exact List.mem_cons_self
      have hsurrounding := hheads.surrounding?_eq hgraded
      cases parent with
      | some owner =>
          obtain ⟨_, name, hslot⟩ := hheads.under owner rfl
          rw [hsurrounding]
          exact ⟨name, id, hslot, hself⟩
      | none =>
          cases prev with
          | none =>
              rw [hsurrounding]
              exact ⟨id, hheads.onTop rfl rfl, hself⟩
          -- A node lies where the node before it lies, whose number is smaller.
          | some before =>
              obtain ⟨_, hlt, hnext⟩ := hheads.follows before rfl
              have hbefore := ih before hlt (Nat.lt_trans hlt hid)
              rw [hsurrounding]
              change ws.LiesIn (ws.surrounding? before) id
              generalize ws.surrounding? before = surrounding at hbefore ⊢
              cases surrounding with
              | none =>
                  obtain ⟨head, htop, hmem⟩ := hbefore
                  obtain ⟨block, _, hhead⟩ := exists_rel_of_mem h.top htop
                  exact ⟨head, htop,
                    hgraded.mem_chain_next (Workspace.lt_size_of_node? hhead.node?) hmem hnext⟩
              | some owner =>
                  obtain ⟨name, head, hslot, hmem⟩ := hbefore
                  exact ⟨name, head, hslot,
                    hgraded.mem_chain_next (hgraded.slot owner name head hslot).1 hmem hnext⟩

/-- The walk backwards from the nodes of a chain ends where its head lies. -/
theorem Placed.surrounding_of_liesIn (h : c.Placed blocks ws) {surrounding : Option NodeId}
    {id : NodeId} (hlies : ws.LiesIn surrounding id) : ws.surrounding? id = surrounding := by
  have hchain {parent : Option NodeId} {head : NodeId} {block : Block}
      (hheads : Heads c ws parent none head block) (hmem : id ∈ ws.chain (some head)) :
      ws.surrounding? id = parent := by
    obtain ⟨_, _, hstands⟩ := exists_rel_of_mem (hheads.chain_stands h.graded) hmem
    rw [hstands.surrounding, (hheads.stands h.graded).surrounding]
  cases surrounding with
  | none =>
      obtain ⟨head, htop, hmem⟩ := hlies
      obtain ⟨block, _, hheads⟩ := exists_rel_of_mem h.top htop
      exact hchain hheads hmem
  | some owner =>
      obtain ⟨name, head, hslot, hmem⟩ := hlies
      obtain ⟨block, hheads⟩ := h.heads_of_slot? hslot
      exact hchain hheads hmem

/-- The walk from a block visits its nodes in the order of their numbers, and finds the
block again. -/
def Walked (c : Converter) (ws : Workspace) (steps : Nat) (id : NodeId) (block : Block) : Prop :=
  ∃ outline, ws.walkWithin steps id = some outline ∧
    outline.labels.map Prod.fst = List.range' id block.all.length ∧ c.Rebuilds outline block

theorem walkSlots {steps : Nat} {first : NodeId} {slots : List (String × Block)}
    (h : List.Forall₂ (fun e slot => e.1 = slot.1 ∧ c.Walked ws steps e.2 slot.2)
      (slotHeads first slots) slots) :
    ∃ outlines, ((slotHeads first slots).mapM fun e => do
        let below ← ws.walkWithin steps e.2
        return (e.1, below)) = some outlines ∧
      (Outline.labelsInSlots outlines).map Prod.fst =
        List.range' first (Block.allInSlots slots).length ∧
      c.RebuildsSlots outlines slots := by
  induction slots generalizing first with
  | nil => exact ⟨[], rfl, rfl, trivial⟩
  | cons slot rest ih =>
      obtain ⟨name, block⟩ := slot
      rw [slotHeads] at h ⊢
      cases h with
      | cons hblock hrest =>
          obtain ⟨outline, hwalk, hids, hrebuilt⟩ := hblock.2
          obtain ⟨outlines, hwalks, hidsRest, hrebuiltRest⟩ := ih hrest
          refine ⟨(name, outline) :: outlines, ?_, ?_, rfl, hrebuilt, hrebuiltRest⟩
          · rw [List.mapM_cons, hwalk, hwalks]
            rfl
          · rw [Outline.labelsInSlots, List.map_append, hids, hidsRest, Block.allInSlots,
              List.length_append, List.range'_append_1]

/-- One step of the walk: from a node to the chains in its slots and to what follows. -/
theorem Heads.walked_step {parent prev : Option NodeId} {id steps : Nat} {data : BlockData}
    {slots : List (String × Block)} {next : Option Block}
    (h : Heads c ws parent prev id (.mk data slots next))
    (htold : c.Says (.mk data slots next) (c.look (.mk data slots next)))
    (hslots : List.Forall₂ (fun e slot => e.1 = slot.1 ∧ c.Walked ws steps e.2 slot.2)
      (slotHeads (id + 1) slots) slots)
    (hnext : ∀ following, next = some following →
      c.Walked ws steps (id + 1 + (Block.allInSlots slots).length) following) :
    c.Walked ws (steps + 1) id (.mk data slots next) := by
  obtain ⟨outlines, hwalks, hids, hrebuilt⟩ := walkSlots hslots
  have hentries := Table.entries_ofList (slotHeads_ascending (id + 1) h.ordered.1)
  rw [Walked, Workspace.walkWithin, h.node?]
  change ∃ outline, ((Table.ofList (slotHeads (id + 1) slots)).entries.mapM _ >>= _) =
    some outline ∧ _
  rw [hentries, hwalks]
  -- A node says the same with its links as without them.
  let node : Node := { c.linked id (.mk data slots next) with parent := parent, prev := prev }
  have hnode : c.Says (.mk data slots next) node :=
    ⟨htold.typeName, htold.kind, htold.disabled, htold.field, htold.valueType, htold.itemCount⟩
  cases next with
  | none =>
      refine ⟨.mk (id, node) outlines none, rfl, ?_, hnode, hrebuilt, trivial⟩
      rw [Outline.labels, Outline.labelsNext, List.append_nil, List.map_cons, hids,
        Block.all, Block.allNext, List.append_nil, List.length_cons, List.range'_succ]
  | some following =>
      obtain ⟨outline', hwalk', hids', hrebuilt'⟩ := hnext following rfl
      refine ⟨.mk (id, node) outlines (some outline'), ?_, ?_, hnode, hrebuilt, hrebuilt'⟩
      · change (ws.walkWithin steps (id + 1 + (Block.allInSlots slots).length) >>= _) = _
        rw [hwalk']
        rfl
      · rw [Outline.labels, Outline.labelsNext, List.map_cons, List.map_append, hids,
          hids', List.range'_append_1, Block.all, Block.allNext,
          List.length_cons, List.length_append, List.range'_succ]

/-- The walk from a block's node, with a step for each number from there on. -/
theorem Heads.walked {parent prev : Option NodeId} {id steps : Nat} {block : Block}
    (h : Heads c ws parent prev id block) (htold : ∀ b ∈ block.all, c.Says b (c.look b))
    (hsteps : ws.size ≤ steps + id) : c.Walked ws steps id block := by
  induction block using Block.induct generalizing parent prev id steps with
  | mk data slots next hslots hnext =>
      have hid := Workspace.lt_size_of_node? h.node?
      cases steps with
      | zero => exact absurd hid (Nat.not_lt_of_le (by omega))
      | succ steps =>
          -- Every link leads to a larger number, so one step less is enough from there.
          have hzip := List.forall₂_iff_zip.1 h.slots
          refine h.walked_step (htold _ (Block.mem_all_iff.2 (.inl rfl)))
            (List.forall₂_iff_zip.2 ⟨hzip.1, ?_⟩) ?_
          · intro e slot hmem
            obtain ⟨hname, hheads⟩ := hzip.2 hmem
            have hslot := (List.of_mem_zip hmem).2
            have hlt : id < e.2 := (hheads.under id rfl).1
            refine ⟨hname, hslots slot hslot hheads (fun b hb => ?_) (by omega)⟩
            exact htold b (Block.mem_all_iff.2 (.inr (.inl ⟨slot, hslot, hb⟩)))
          · intro following hfollowing
            refine hnext following hfollowing (h.after hfollowing) (fun b hb => ?_) (by omega)
            exact htold b (Block.mem_all_iff.2 (.inr (.inr ⟨following, hfollowing, hb⟩)))

/-- The walks from the nodes on the surface. -/
theorem walkTop {first : NodeId} {blocks : List Block}
    (h : List.Forall₂ (Heads c ws none none) (topIds first blocks) blocks)
    (htold : ∀ b ∈ blocks.flatMap Block.all, c.Says b (c.look b)) :
    ∃ forest, (topIds first blocks).mapM ws.walk = some forest ∧
      (forest.flatMap Outline.labels).map Prod.fst =
        List.range' first (blocks.flatMap Block.all).length ∧
      List.Forall₂ c.Rebuilds forest blocks := by
  induction blocks generalizing first with
  | nil => exact ⟨[], rfl, rfl, .nil⟩
  | cons block rest ih =>
      rw [topIds] at h ⊢
      cases h with
      | cons hblock hrest =>
          rw [List.flatMap_cons, List.forall_mem_append] at htold
          obtain ⟨outline, hwalk, hids, hrebuilt⟩ :=
            hblock.walked htold.1 (Nat.le_add_right ws.size first)
          obtain ⟨forest, hwalks, hidsRest, hrebuiltRest⟩ := ih hrest htold.2
          refine ⟨outline :: forest, ?_, ?_, .cons hrebuilt hrebuiltRest⟩
          · rw [List.mapM_cons, Workspace.walk, hwalk, hwalks]
            rfl
          · rw [List.flatMap_cons, List.map_append, hids, hidsRest, List.flatMap_cons,
              List.length_append, List.range'_append_1]

/-- Every tree that converts becomes a forest, in whatever way sums are added up. -/
theorem forest_of_convert {ε : Type} {b : Build ε} {tree : EditorTree}
    (h : c.convertIn b tree = .ok ws) : c.Forest tree ws := by
  obtain ⟨hnode, hnumbered⟩ := convertIn_eq_ok_iff.1 h
  have hplaced := placed_of_convert h
  have htop : ws.top = topIds 0 tree.blocks := by rw [hnumbered, numbered]
  have hsize : ws.size = tree.all.length := hplaced.size
  have hheads := hplaced.top
  refine ⟨hsize, hheads.length_eq, htop ▸ nodup_topIds 0 tree.blocks, ?_, hplaced.graded,
    hplaced.graded.walksEnd, ?_⟩
  · rw [htop] at hheads ⊢
    obtain ⟨forest, hwalks, hids, hrebuilt⟩ :=
      walkTop hheads fun block hblock => says_of_node (hnode block hblock)
    refine ⟨forest, hwalks, ?_, hrebuilt⟩
    rw [hids, hsize, EditorTree.all, List.range_eq_range']
  · intro id hid surrounding
    constructor
    · rintro rfl
      exact hplaced.liesIn hid
    · exact hplaced.surrounding_of_liesIn

end Converter

/-- An unknown block with a declared number of parts, and an input that is called something
else.  In the input's slots are a dropdown with field values of all kinds and a gap after
its second option, a disabled label after it, and a group whose slots are numbered with a
plus sign and with a needless zero. -/
def EditorTree.assorted : EditorTree :=
  let number : Block := .mk { type := "type_number" } [] none
  let pin : Block := .mk { type := "type_other", valueType := some "Pin" } [] none
  let group : Block := .mk { type := "type_group" } [("TYPE+2", pin), ("TYPE00", number)] none
  let label : Block :=
    .mk { type := "field_static", fields := .ofList [("TEXT", .text "on")], disabled := true }
      [] none
  let dropdown : Block :=
    .mk
      { type := "field_dropdown"
        fields := .ofList
          [("USER0", .number (.integer (-7))), ("CPU0", .bool true), ("CPU1", .null),
            ("USER3", .bool false)] } [] (some label)
  .ofBlocks
    [.mk { type := "note", itemCount := some 4 } [] none,
      .mk { type := "own_value" } [("FIELDS", dropdown), ("TYPE", group)] none]

/-- The same blocks as nodes. -/
def Workspace.assorted : Workspace where
  nodes := #[
    { kind := .other, typeName := "note", itemCount := 4 },
    { kind := .valueInput, typeName := "input_value"
      slots := .ofList [("FIELDS", 2), ("TYPE", 4)] },
    { kind := .dropdownField, typeName := "field_dropdown"
      fields := .ofList [("USER0", "-7"), ("CPU0", "TRUE"), ("CPU1", ""), ("USER3", "FALSE")]
      itemCount := 2, parent := some 1, next := some 3 },
    { kind := .literalText, typeName := "field_static", fields := .ofList [("TEXT", "on")]
      disabled := true, prev := some 2 },
    { kind := .typeGroup, typeName := "type_group", itemCount := 3, parent := some 1
      slots := .ofList [("TYPE+2", 5), ("TYPE00", 6)] },
    { kind := .typeOther, typeName := "type_other", valueType := some "Pin", parent := some 4 },
    { kind := .typeAtom, typeName := "type_number", valueType := some "Number"
      parent := some 4 }]
  top := [0, 1]

theorem Converter.forest_of_convert_assorted :
    let c : Converter := { mapping := .ofList [("own_value", "input_value")] }
    c.convert .assorted = .ok .assorted ∧ c.convertIn .checked .assorted = .ok .assorted ∧
      c.Forest .assorted .assorted := by
  intro c
  have hconvert : c.convert .assorted = .ok .assorted := by decide +kernel
  exact ⟨hconvert, by decide +kernel, forest_of_convert hconvert⟩

end BlockForge
