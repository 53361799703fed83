import BlockForge.Proofs.Numbering
import BlockForge.Proofs.Walks

/-!
Where the blocks of a tree stand in its workspace.

The nodes of a block and of everything below and after it stand one after the other
(`Holds`).  From the number of its head, a chain of the tree can be followed through
the workspace (`chain_stands`), and every node is met in this way (`exists_heads`).  So
all links forwards lead to larger numbers and all links backwards to smaller ones.
-/

namespace BlockForge

/-- The node without its links. -/
def Node.bare (node : Node) : Node :=
  { node with parent := none, prev := none, next := none, slots := ∅ }

/-- Look-ups among entries that go together in order find values that go together. -/
theorem Table.rel_find {α β : Type} {R : α → β → Prop} {es : List (String × α)}
    {fs : List (String × β)} (h : List.Forall₂ (fun e f => e.1 = f.1 ∧ R e.2 f.2) es fs)
    (k : String) : Option.Rel R (find k es) (find k fs) := by
  induction h with
  | nil => exact .none
  | @cons e f es fs hrel _ ih =>
      rw [find, find, ← hrel.1]
      by_cases hk : k = e.1
      · rw [if_pos hk, if_pos hk]
        exact .some hrel.2
      · rw [if_neg hk, if_neg hk]
        exact ih

namespace Workspace

/-- The nodes from a number on begin with the given ones. -/
def Holds (ws : Workspace) : NodeId → List Node → Prop
  | _, [] => True
  | id, node :: rest => ws.node? id = some node ∧ ws.Holds (id + 1) rest

theorem holds_append {ws : Workspace} {id : NodeId} {before after : List Node} :
    ws.Holds id (before ++ after) ↔ ws.Holds id before ∧ ws.Holds (id + before.length) after := by
  induction before generalizing id with
  | nil => simp [Holds]
  | cons node rest ih =>
      rw [List.cons_append, Holds, Holds, ih, List.length_cons, Nat.add_assoc,
        Nat.add_comm 1 rest.length, and_assoc]

theorem holds_toArray (before nodes : List Node) (top : List NodeId) :
    Holds ⟨(before ++ nodes).toArray, top⟩ before.length nodes := by
  induction nodes generalizing before with
  | nil => trivial
  | cons node rest ih =>
      have hrest := ih (before ++ [node])
      rw [List.length_append, List.append_assoc] at hrest
      refine ⟨?_, hrest⟩
      simp [node?]

end Workspace

namespace Converter

variable {c : Converter} {ws : Workspace}

theorem holds_nodes {parent prev : Option NodeId} {id : NodeId} {data : BlockData}
    {slots : List (String × Block)} {next : Option Block} :
    ws.Holds id (c.nodes parent prev id (.mk data slots next)) ↔
      ws.node? id =
        some { c.linked id (.mk data slots next) with parent := parent, prev := prev } ∧
      ws.Holds (id + 1) (c.slotNodes id (id + 1) slots) ∧
      ws.Holds (id + 1 + (Block.allInSlots slots).length)
        (c.nextNodes id (id + 1 + (Block.allInSlots slots).length) next) := by
  rw [nodes, Workspace.Holds, Workspace.holds_append, length_slotNodes]

theorem le_of_mem_slotHeads {first : NodeId} {slots : List (String × Block)}
    {e : String × NodeId} (h : e ∈ slotHeads first slots) : first ≤ e.2 := by
  induction slots generalizing first with
  | nil => cases h
  | cons slot rest ih =>
      rcases List.mem_cons.1 h with rfl | h
      · exact Nat.le_refl _
      · exact Nat.le_trans (Nat.le_add_right _ _) (ih h)

theorem slotHeads_ascending (first : NodeId) {slots : List (String × Block)}
    (h : slots.Pairwise fun a b => a.1 < b.1) :
    (slotHeads first slots).Pairwise fun a b => a.1 < b.1 := by
  have hnames : ∀ first, (slotHeads first slots).map Prod.fst = slots.map Prod.fst := by
    clear h
    induction slots with
    | nil => intro first; rfl
    | cons slot rest ih =>
        intro first
        rw [slotHeads, List.map_cons, List.map_cons, ih]
  have hpairs : (slots.map Prod.fst).Pairwise (· < ·) := List.pairwise_map.2 h
  rw [← hnames first] at hpairs
  exact List.pairwise_map.1 hpairs

/-- The chains in slots, each with its nodes from the number of its head on. -/
theorem holds_slotNodes {owner first : NodeId} {slots : List (String × Block)}
    (h : ws.Holds first (c.slotNodes owner first slots)) (hordered : Block.SlotsOrdered slots) :
    List.Forall₂ (fun e slot => e.1 = slot.1 ∧ slot.2.Ordered ∧
      ws.Holds e.2 (c.nodes (some owner) none e.2 slot.2)) (slotHeads first slots) slots := by
  induction slots generalizing first with
  | nil => exact .nil
  | cons slot rest ih =>
      rw [slotNodes, Workspace.holds_append, length_nodes] at h
      exact .cons ⟨rfl, hordered.1, h.1⟩ (ih h.2 hordered.2)

/-- A block stands at a number with everything below and after it, and what leads to it
are the links of its node. -/
structure Heads (c : Converter) (ws : Workspace) (parent prev : Option NodeId) (id : NodeId)
    (block : Block) : Prop where
  holds : ws.Holds id (c.nodes parent prev id block)
  ordered : block.Ordered
  under : ∀ owner, parent = some owner → owner < id ∧ ∃ name, ws.slot? owner name = some id
  follows : ∀ before, prev = some before →
    parent = none ∧ before < id ∧ ws.next? before = some id
  onTop : parent = none → prev = none → id ∈ ws.top

namespace Heads

variable {parent prev : Option NodeId} {id : NodeId} {block : Block}

theorem node? (h : Heads c ws parent prev id block) :
    ws.node? id = some { c.linked id block with parent := parent, prev := prev } := by
  obtain ⟨data, slots, next⟩ := block
  exact (holds_nodes.1 h.holds).1

theorem next? (h : Heads c ws parent prev id block) :
    ws.next? id = block.next.map fun _ => id + 1 + (Block.allInSlots block.slots).length := by
  rw [Workspace.next?, h.node?]
  rfl

theorem slot? (h : Heads c ws parent prev id block) (name : String) :
    ws.slot? id name = Table.find name (slotHeads (id + 1) block.slots) := by
  obtain ⟨data, slots, next⟩ := block
  rw [Workspace.slot?, h.node?]
  change Table.find name (Table.ofList (slotHeads (id + 1) slots)).entries = _
  rw [Table.entries_ofList (slotHeads_ascending _ h.ordered.1)]
  rfl

/-- The block that follows stands at the end of the `next` link. -/
theorem after (h : Heads c ws parent prev id block) {following : Block}
    (hnext : block.next = some following) :
    Heads c ws none (some id) (id + 1 + (Block.allInSlots block.slots).length) following := by
  have hlink := h.next?
  obtain ⟨data, slots, next⟩ := block
  obtain rfl : next = some following := hnext
  refine ⟨(holds_nodes.1 h.holds).2.2, h.ordered.2.2, ?_, ?_, ?_⟩
  · intro owner howner
    cases howner
  · intro before hbefore
    obtain rfl := Option.some.inj hbefore
    exact ⟨rfl, Nat.lt_add_right _ (Nat.lt_succ_self _), hlink⟩
  · intro _ hprev
    cases hprev

/-- The chains in the slots of a block stand at the ends of the slots' links. -/
theorem slots (h : Heads c ws parent prev id block) :
    List.Forall₂ (fun e slot => e.1 = slot.1 ∧ Heads c ws (some id) none e.2 slot.2)
      (slotHeads (id + 1) block.slots) block.slots := by
  have hslot := h.slot?
  obtain ⟨data, slots, next⟩ := block
  have hnodes := holds_slotNodes (holds_nodes.1 h.holds).2.1 h.ordered.2.1
  have hmem : ∀ e ∈ slotHeads (id + 1) slots, e ∈ slotHeads (id + 1) slots := fun e he => he
  refine ((List.forall₂_and_left _ _).2 ⟨hmem, hnodes⟩).imp ?_
  rintro ⟨name, head⟩ ⟨_, child⟩ ⟨he, rfl, hchild, hholds⟩
  refine ⟨rfl, hholds, hchild, ?_, ?_, ?_⟩
  · intro owner howner
    obtain rfl := Option.some.inj howner
    refine ⟨le_of_mem_slotHeads he, name, ?_⟩
    rw [hslot]
    exact Table.find_of_mem (slotHeads_ascending _ h.ordered.1) he
  · intro before hbefore
    cases hbefore
  · intro hparent
    cases hparent

/-- The chain in a slot stands at the end of the slot's link. -/
theorem slot_rel (h : Heads c ws parent prev id block) (name : String) :
    Option.Rel (fun head child => Heads c ws (some id) none head child)
      (ws.slot? id name) (block.slot? name) := by
  rw [h.slot?]
  exact Table.rel_find h.slots name

/-- At the end of a slot's link stands the head of the chain in the slot. -/
theorem below (h : Heads c ws parent prev id block) {name : String} {head : NodeId}
    (hslot : ws.slot? id name = some head) :
    ∃ child, block.slot? name = some child ∧ Heads c ws (some id) none head child := by
  have hrel := h.slot_rel name
  rw [hslot] at hrel
  generalize block.slot? name = child at hrel ⊢
  cases hrel with
  | some hheads => exact ⟨_, rfl, hheads⟩

end Heads

/-- A block among those in slots is one of the blocks of a chain, and counted from the head
of that. -/
theorem exists_slot_of_getElem? (first : Nat) {k : Nat}
    {slots : List (String × Block)} {other : Block}
    (h : (Block.allInSlots slots)[k]? = some other) :
    ∃ name child head j, (name, child) ∈ slots ∧ (name, head) ∈ slotHeads first slots ∧
      first + k = head + j ∧ child.all[j]? = some other := by
  induction slots generalizing first k with
  | nil => cases h
  | cons slot rest ih =>
      obtain ⟨name, block⟩ := slot
      rw [Block.allInSlots] at h
      by_cases hblock : k < block.all.length
      · rw [List.getElem?_append_left hblock] at h
        exact ⟨name, block, first, k, List.mem_cons_self, List.mem_cons_self, rfl, h⟩
      · rw [List.getElem?_append_right (Nat.le_of_not_lt hblock)] at h
        obtain ⟨name', child, head, j, hchild, hhead, hnumber, hother⟩ :=
          ih (first + block.all.length) h
        refine ⟨name', child, head, j, List.mem_cons_of_mem _ hchild,
          List.mem_cons_of_mem _ hhead, ?_, hother⟩
        omega

/-- The blocks below and after a block stand at the numbers after its own, in their
order. -/
theorem Heads.heads_of_getElem? {parent prev : Option NodeId} {id k : Nat} {block other : Block}
    (h : Heads c ws parent prev id block) (hother : block.all[k]? = some other) :
    ∃ parent prev, Heads c ws parent prev (id + k) other := by
  induction block using Block.induct generalizing parent prev id k with
  | mk data slots next hslots hnext =>
      rw [Block.all] at hother
      -- The number is that of the block itself, of one in a slot or of one that follows.
      cases k with
      | zero =>
          obtain rfl := Option.some.inj hother
          exact ⟨parent, prev, h⟩
      | succ k =>
          rw [List.getElem?_cons_succ] at hother
          by_cases hbelow : k < (Block.allInSlots slots).length
          · rw [List.getElem?_append_left hbelow] at hother
            obtain ⟨name, child, head, j, hchild, hhead, hnumber, hother⟩ :=
              exists_slot_of_getElem? (id + 1) hother
            have hslot := h.slot? name
            rw [Block.slots, Table.find_of_mem (slotHeads_ascending _ h.ordered.1) hhead] at hslot
            obtain ⟨child', hchild', hheads⟩ := h.below hslot
            have hfind := Table.find_of_mem h.ordered.1 hchild
            obtain rfl := Option.some.inj (hfind.symm.trans hchild')
            have hnumber' : id + (k + 1) = head + j := by omega
            rw [hnumber']
            exact hslots _ hchild hheads hother
          · rw [List.getElem?_append_right (Nat.le_of_not_lt hbelow)] at hother
            cases next with
            | none => cases hother
            | some following =>
                have hheads := hnext following rfl (h.after rfl) hother
                have hnumber : id + 1 + (Block.allInSlots slots).length +
                    (k - (Block.allInSlots slots).length) = id + (k + 1) := by omega
                rwa [Block.slots, hnumber] at hheads

/-- The blocks on the surface stand at the numbers of the heads. -/
theorem heads_of_topNodes {first : NodeId} {blocks : List Block}
    (h : ws.Holds first (c.topNodes first blocks)) (hordered : ∀ block ∈ blocks, block.Ordered)
    (htop : ∀ id ∈ topIds first blocks, id ∈ ws.top) :
    List.Forall₂ (Heads c ws none none) (topIds first blocks) blocks := by
  induction blocks generalizing first with
  | nil => exact .nil
  | cons block rest ih =>
      rw [topNodes, Workspace.holds_append, length_nodes] at h
      refine .cons ⟨h.1, hordered _ List.mem_cons_self, ?_, ?_, ?_⟩ (ih h.2 ?_ ?_)
      · intro owner howner
        cases howner
      · intro before hbefore
        cases hbefore
      · intro _ _
        exact htop _ List.mem_cons_self
      · intro b hb
        exact hordered b (List.mem_cons_of_mem _ hb)
      · intro id hid
        exact htop id (List.mem_cons_of_mem _ hid)

/-- The blocks of a tree stand at the numbers in their order. -/
theorem heads_of_getElem?_flatMap {first k : Nat} {blocks : List Block} {other : Block}
    (h : List.Forall₂ (Heads c ws none none) (topIds first blocks) blocks)
    (hother : (blocks.flatMap Block.all)[k]? = some other) :
    ∃ parent prev, Heads c ws parent prev (first + k) other := by
  induction blocks generalizing first k with
  | nil => cases hother
  | cons block rest ih =>
      rw [topIds] at h
      cases h with
      | cons hblock hrest =>
          rw [List.flatMap_cons] at hother
          by_cases hwithin : k < block.all.length
          · rw [List.getElem?_append_left hwithin] at hother
            exact hblock.heads_of_getElem? hother
          · rw [List.getElem?_append_right (Nat.le_of_not_lt hwithin)] at hother
            have hheads := ih hrest hother
            have hnumber : first + block.all.length + (k - block.all.length) = first + k := by omega
            rwa [hnumber] at hheads

/-- A workspace in which the blocks of a tree stand: those on the surface at the heads
of the chains there, and at each number some block. -/
structure Placed (c : Converter) (blocks : List Block) (ws : Workspace) : Prop where
  size : ws.size = (blocks.flatMap Block.all).length
  top : List.Forall₂ (Heads c ws none none) ws.top blocks
  exists_heads : ∀ id < ws.size, ∃ parent prev block, Heads c ws parent prev id block

theorem heads_numbered {tree : EditorTree} : List.Forall₂
    (Heads c (c.numbered tree.blocks) none none) (topIds 0 tree.blocks) tree.blocks :=
  heads_of_topNodes (Workspace.holds_toArray [] (c.topNodes 0 tree.blocks) (topIds 0 tree.blocks))
    tree.ordered fun _ hid => hid

/-- The blocks of a tree that converts stand in the workspace in their order. -/
theorem heads_of_convert {ε : Type} {b : Build ε} {tree : EditorTree}
    (h : c.convertIn b tree = .ok ws) {id : NodeId} {block : Block}
    (hblock : tree.all[id]? = some block) :
    ∃ parent prev, Heads c ws parent prev id block := by
  obtain ⟨_, rfl⟩ := convertIn_eq_ok_iff.1 h
  have hheads := heads_of_getElem?_flatMap (c := c) heads_numbered hblock
  rwa [Nat.zero_add] at hheads

/-- Conversion places the blocks of a tree. -/
theorem placed_of_convert {ε : Type} {b : Build ε} {tree : EditorTree}
    (h : c.convertIn b tree = .ok ws) : c.Placed tree.blocks ws := by
  have hnumbered := (convertIn_eq_ok_iff.1 h).2
  have hsize : ws.size = (tree.blocks.flatMap Block.all).length := by
    rw [← c.length_topNodes 0, hnumbered]
    exact List.size_toArray
  refine ⟨hsize, hnumbered ▸ heads_numbered, ?_⟩
  intro id hid
  rw [hsize] at hid
  obtain ⟨parent, prev, hheads⟩ := heads_of_convert h (List.getElem?_eq_getElem hid)
  exact ⟨parent, prev, _, hheads⟩

namespace Placed

variable {blocks : List Block}

theorem size_eq_zero_iff (h : c.Placed blocks ws) : ws.size = 0 ↔ blocks = [] := by
  rw [h.size]
  cases blocks with
  | nil => exact iff_of_true rfl rfl
  | cons block rest =>
      refine iff_of_false ?_ (List.cons_ne_nil _ _)
      rw [List.flatMap_cons, List.length_append]
      exact Nat.ne_of_gt (Nat.add_pos_left block.length_all_pos _)

theorem rises_next (h : c.Placed blocks ws) {id after : NodeId}
    (hafter : ws.next? id = some after) :
    after < ws.size ∧ id < after := by
  obtain ⟨node, hnode, _⟩ := Option.bind_eq_some_iff.1 hafter
  obtain ⟨parent, prev, block, hheads⟩ := h.exists_heads id (Workspace.lt_size_of_node? hnode)
  rw [hheads.next?] at hafter
  obtain ⟨following, hnext, rfl⟩ := Option.map_eq_some_iff.1 hafter
  exact ⟨Workspace.lt_size_of_node? (hheads.after hnext).node?,
    Nat.lt_add_right _ (Nat.lt_succ_self _)⟩

theorem heads_of_slot? (h : c.Placed blocks ws) {id child : NodeId} {name : String}
    (hslot : ws.slot? id name = some child) :
    ∃ block, Heads c ws (some id) none child block := by
  obtain ⟨parent, prev, block, hheads⟩ := h.exists_heads id (Workspace.lt_size_of_slot? hslot)
  obtain ⟨child', _, hchild⟩ := hheads.below hslot
  exact ⟨child', hchild⟩

/-- All links forwards lead to larger numbers, all links backwards to smaller ones. -/
theorem graded (h : c.Placed blocks ws) : ws.Graded fun id => id where
  rank_lt := fun _ hid => hid
  next := fun _ _ hafter => h.rises_next hafter
  slot := by
    intro id name child hslot
    obtain ⟨block, hchild⟩ := h.heads_of_slot? hslot
    exact ⟨Workspace.lt_size_of_node? hchild.node?, (hchild.under id rfl).1⟩
  prev := by
    intro id node before hnode hprev
    have hid := Workspace.lt_size_of_node? hnode
    obtain ⟨parent, prev, block, hheads⟩ := h.exists_heads id hid
    rw [hheads.node?] at hnode
    obtain rfl := Option.some.inj hnode
    have hlt := (hheads.follows before hprev).2.1
    exact ⟨Nat.lt_trans hlt hid, hlt⟩
  parent := by
    intro id node owner hnode hparent
    have hid := Workspace.lt_size_of_node? hnode
    obtain ⟨parent, prev, block, hheads⟩ := h.exists_heads id hid
    rw [hheads.node?] at hnode
    obtain rfl := Option.some.inj hnode
    have hlt := (hheads.under owner hparent).1
    exact ⟨Nat.lt_trans hlt hid, hlt⟩

end Placed

/-- A block stands at a number of a chain that the given node surrounds, whatever
follows it. -/
structure Stands (c : Converter) (ws : Workspace) (surrounding : Option NodeId) (id : NodeId)
    (block : Block) : Prop where
  heads : ∃ parent prev next, Heads c ws parent prev id (.mk block.data block.slots next)
  surrounding : ws.surrounding? id = surrounding

theorem Heads.surrounding?_eq (hgraded : ws.Graded fun id => id) {parent prev : Option NodeId}
    {id : NodeId} {block : Block} (h : Heads c ws parent prev id block) :
    ws.surrounding? id = parent.or (prev.bind ws.surrounding?) :=
  hgraded.surrounding?_eq h.node?

/-- The block at the head of a chain stands below what its node is plugged into. -/
theorem Heads.stands (hgraded : ws.Graded fun id => id) {parent : Option NodeId} {id : NodeId}
    {block : Block} (h : Heads c ws parent none id block) : c.Stands ws parent id block := by
  refine ⟨⟨parent, none, block.next, ?_⟩, ?_⟩
  · cases block
    exact h
  · rw [h.surrounding?_eq hgraded]
    exact Option.or_none

/-- The nodes of a chain are those of its blocks, and what surrounds the head surrounds
them all. -/
theorem Heads.chain_stands (hgraded : ws.Graded fun id => id) {parent prev : Option NodeId}
    {id : NodeId} {block : Block} (h : Heads c ws parent prev id block) :
    List.Forall₂ (c.Stands ws (ws.surrounding? id)) (ws.chain (some id)) block.chain := by
  induction block using Block.induct generalizing parent prev id with
  | mk data slots next _ hnext =>
      rw [hgraded.chain_some (Workspace.lt_size_of_node? h.node?), Block.chain]
      refine .cons ⟨⟨parent, prev, next, h⟩, rfl⟩ ?_
      rw [h.next?]
      cases next with
      | none =>
          rw [Block.next, Option.map_none, Workspace.chain_none, Block.chainNext]
          exact .nil
      | some following =>
          have hafter := h.after rfl
          have hsame := hafter.surrounding?_eq hgraded
          rw [Option.none_or, Option.bind_some] at hsame
          rw [← hsame, Block.next, Option.map_some, Block.chainNext]
          exact hnext following rfl hafter

namespace Stands

variable {surrounding : Option NodeId} {id : NodeId} {block : Block}

theorem node? (h : c.Stands ws surrounding id block) :
    ∃ node, ws.node? id = some node ∧ node.bare = c.look block := by
  obtain ⟨parent, prev, next, hheads⟩ := h.heads
  exact ⟨_, hheads.node?, rfl⟩

theorem slot_rel (h : c.Stands ws surrounding id block) (name : String) :
    Option.Rel (fun head child => Heads c ws (some id) none head child)
      (ws.slot? id name) (block.slot? name) := by
  obtain ⟨parent, prev, next, hheads⟩ := h.heads
  exact hheads.slot_rel name

/-- The chain in a slot of a node is that in the block's slot, and the node surrounds
it. -/
theorem chainIn (hgraded : ws.Graded fun id => id) (h : c.Stands ws surrounding id block)
    (name : String) :
    List.Forall₂ (c.Stands ws (some id)) (ws.chain (ws.slot? id name)) (block.chainIn name) := by
  have hrel := h.slot_rel name
  rw [Block.chainIn]
  generalize ws.slot? id name = head at hrel ⊢
  generalize block.slot? name = child at hrel ⊢
  cases hrel with
  | none =>
      rw [Workspace.chain_none, Block.chainNext]
      exact .nil
  | some hhead =>
      have hchain := hhead.chain_stands hgraded
      rw [hhead.surrounding?_eq hgraded] at hchain
      rw [Block.chainNext]
      exact hchain

end Stands

end Converter

end BlockForge
