import BlockForge.Editor.Conversion
import BlockForge.Proofs.Blocks
import BlockForge.Proofs.Fallible
import BlockForge.Proofs.Members

/-!
The numbering of a converted tree.

Every block of a tree becomes one node, and the nodes come in the order in which the
blocks stand in the tree.  So the whole workspace can be written down without the
steps that build it: `nodes` lists the nodes of a block and of everything below and
after it, with all their links, and `convertIn_eq` says that a conversion ends with that
list, unless some block has no node.
-/

namespace BlockForge

namespace Workspace

variable (ws : Workspace)

/-- The workspace with more nodes at the end. -/
def extend (nodes : List Node) : Workspace :=
  { ws with nodes := ws.nodes ++ nodes.toArray }

theorem add_eq_extend (node : Node) : ws.add node = ws.extend [node] := by
  simp [add, extend]

@[simp] theorem extend_nil : ws.extend [] = ws := by
  simp [extend]

theorem extend_extend (before after : List Node) :
    (ws.extend before).extend after = ws.extend (before ++ after) := by
  simp [extend]

@[simp] theorem size_extend (nodes : List Node) :
    (ws.extend nodes).size = ws.size + nodes.length := by
  simp [extend, size]

@[simp] theorem top_extend (nodes : List Node) : (ws.extend nodes).top = ws.top := rfl

theorem node?_extend (nodes : List Node) (id : NodeId) :
    (ws.extend nodes).node? id =
      if id < ws.size then ws.node? id else nodes[id - ws.size]? := by
  have hrest : nodes.toArray[id - ws.nodes.size]? = nodes[id - ws.nodes.size]? :=
    List.getElem?_toArray
  rw [node?, extend, Array.getElem?_append, hrest]
  rfl

/-- Workspaces with the same nodes and the same surface are equal. -/
theorem ext_node? {ws ws' : Workspace} (htop : ws.top = ws'.top)
    (h : ∀ id, ws.node? id = ws'.node? id) : ws = ws' := by
  cases ws
  cases ws'
  obtain rfl := htop
  congr 1
  exact Array.ext_getElem? h

theorem update_id (id : NodeId) : ws.update id (fun node => node) = ws := by
  refine ext_node? rfl ?_
  intro id'
  rw [node?_update]
  split
  next => exact Option.map_id'
  next => rfl

theorem update_update (id : NodeId) (change change' : Node → Node) :
    (ws.update id change).update id change' = ws.update id (change' ∘ change) := by
  refine ext_node? rfl ?_
  intro id'
  simp only [node?_update]
  split
  next => rw [Option.map_map]
  next => rfl

theorem update_extend {id : NodeId} (h : id < ws.size) (nodes : List Node)
    (change : Node → Node) :
    (ws.extend nodes).update id change = (ws.update id change).extend nodes := by
  refine ext_node? rfl ?_
  intro id'
  simp only [node?_update, node?_extend, size_update]
  by_cases hid : id = id'
  · subst hid
    simp [h]
  · simp [hid]

theorem slot?_extend {ws : Workspace} {id : NodeId} (h : id < ws.size) (nodes : List Node)
    (name : String) : (ws.extend nodes).slot? id name = ws.slot? id name := by
  rw [slot?, node?_extend, if_pos h, slot?]

theorem next?_extend {ws : Workspace} {id : NodeId} (h : id < ws.size) (nodes : List Node) :
    (ws.extend nodes).next? id = ws.next? id := by
  rw [next?, node?_extend, if_pos h, next?]

theorem update_extend_head (head : Node) (rest : List Node) (change : Node → Node) :
    (ws.extend (head :: rest)).update ws.size change = ws.extend (change head :: rest) := by
  refine ext_node? rfl ?_
  intro id
  simp only [node?_update, node?_extend]
  by_cases hid : ws.size = id
  · subst hid
    simp
  · rw [if_neg hid]
    by_cases hlt : id < ws.size
    · rw [if_pos hlt, if_pos hlt]
    · have hpos : ws.size < id := Nat.lt_of_le_of_ne (Nat.le_of_not_lt hlt) hid
      obtain ⟨k, rfl⟩ := Nat.exists_eq_add_of_lt hpos
      have hsub : ws.size + k + 1 - ws.size = k + 1 := by omega
      rw [if_neg hlt, if_neg hlt, hsub]
      rfl

/-- Plug a new node, with others after it, into a free slot of an older one. -/
theorem attach_extend {owner : NodeId} (howner : owner < ws.size) {slot : String}
    (hfree : ws.slot? owner slot = none) (head : Node) (rest : List Node) :
    (ws.extend (head :: rest)).attach owner slot ws.size =
      .ok ((ws.update owner fun node =>
        { node with slots := node.slots.insert slot ws.size }).extend
          ({ head with parent := some owner } :: rest)) := by
  have hslot : (ws.extend (head :: rest)).slot? owner slot = none := by
    rw [slot?_extend howner, hfree]
  have hhead := update_extend_head
    (ws.update owner fun node => { node with slots := node.slots.insert slot ws.size })
    head rest fun node => { node with parent := some owner }
  rw [size_update] at hhead
  rw [attach, hslot, update_extend ws howner, hhead]
  rfl

/-- Put a new node, with others after it, after an older one that has none after it. -/
theorem link_extend {before : NodeId} (hbefore : before < ws.size)
    (hfree : ws.next? before = none) (head : Node) (rest : List Node) :
    (ws.extend (head :: rest)).link before ws.size =
      .ok ((ws.update before fun node => { node with next := some ws.size }).extend
        ({ head with prev := some before } :: rest)) := by
  have hnext : (ws.extend (head :: rest)).next? before = none := by
    rw [next?_extend hbefore, hfree]
  have hhead := update_extend_head
    (ws.update before fun node => { node with next := some ws.size })
    head rest fun node => { node with prev := some before }
  rw [size_update] at hhead
  rw [link, hnext, update_extend ws hbefore, hhead]
  rfl

end Workspace

/-- The numbers of the chains in slots, when the first one has the given number. -/
def slotHeads : NodeId → List (String × Block) → List (String × NodeId)
  | _, [] => []
  | id, (name, block) :: rest => (name, id) :: slotHeads (id + block.all.length) rest

namespace Block

/-- The number of parts that a block infers, where sums wrap around. -/
def inferred (block : Block) : Kind → Nat
  | .dropdownField => optionCount block.data.fields
  | .typeGroup => memberCount (block.slots.map Prod.fst)
  | _ => 0

theorem eq_inferred {ε : Type} {b : Build ε} {block : Block} {kind : Kind} {n : Nat}
    (h : block.inferredCount b.succ kind = .ok n) : n = block.inferred kind := by
  unfold inferredCount at h
  split at h
  next => exact (Except.ok.inj h).symm
  next =>
    rw [inferred, memberCount]
    split at h
    next last hlast =>
      rw [hlast]
      exact b.succ_eq h
    next hlast =>
      rw [hlast]
      exact (Except.ok.inj h).symm
  next hdropdown hgroup =>
    rw [inferred] <;> first | assumption | exact (Except.ok.inj h).symm

theorem inferredCount_wrapping (block : Block) (kind : Kind) :
    block.inferredCount Build.wrapping.succ kind = .ok (block.inferred kind) := by
  cases kind
  case typeGroup =>
    rw [inferredCount, inferred, memberCount]
    cases lastMember? (block.slots.map Prod.fst) <;> rfl
  all_goals rfl

/-- The number of parts that a block infers still fits when some of its slots are gone. -/
theorem isOk_inferredCount_of_subset {ε : Type} {b : Build ε} {block other : Block}
    {kind : Kind} (hslots : other.slots.map Prod.fst ⊆ block.slots.map Prod.fst)
    (h : (block.inferredCount b.succ kind).isOk = true) :
    (other.inferredCount b.succ kind).isOk = true := by
  unfold inferredCount at h ⊢
  cases kind
  case dropdownField => rfl
  case typeGroup =>
    cases hlast : lastMember? (other.slots.map Prod.fst) with
    | none => rfl
    | some m =>
        obtain ⟨n, hn, hle⟩ := le_lastMember? hslots hlast
        rw [hn] at h
        exact b.isOk_succ_of_le hle h
  all_goals rfl

end Block

namespace Converter

variable (c : Converter)

/-- The kind of a block's node, where it has one. -/
def kindOf (block : Block) : Kind :=
  (Kind.ofTypeName? (c.typeName block)).getD .other

/-- The node of a block, where it has one, apart from its links. -/
def look (block : Block) : Node :=
  c.bare block (c.kindOf block) (block.data.itemCount.getD (block.inferred (c.kindOf block)))

@[simp] theorem kind_look (block : Block) : (c.look block).kind = c.kindOf block := rfl

theorem itemCount_look (block : Block) :
    (c.look block).itemCount = block.data.itemCount.getD (block.inferred (c.kindOf block)) :=
  rfl

theorem eq_kindOf {c : Converter} {block : Block} {kind : Kind} (h : c.kind block = .ok kind) :
    kind = c.kindOf block := by
  rw [kindOf]
  unfold Converter.kind at h
  split at h
  next found hfound =>
    rw [hfound]
    exact (Except.ok.inj h).symm
  next hfound =>
    rw [hfound]
    split at h
    next => cases h
    next => exact (Except.ok.inj h).symm

section Build

variable {ε : Type} {b : Build ε} {c : Converter} {block : Block}

theorem itemCount_eq {kind : Kind} {n : Nat} (h : itemCount b block kind = .ok n) :
    n = block.data.itemCount.getD (block.inferred kind) := by
  unfold itemCount at h
  split at h
  next count hcount =>
    rw [hcount]
    exact (Except.ok.inj h).symm
  next hcount =>
    rw [hcount]
    exact Block.eq_inferred h

theorem itemCount_wrapping (block : Block) (kind : Kind) :
    itemCount .wrapping block kind =
      .ok (block.data.itemCount.getD (block.inferred kind)) := by
  rw [itemCount]
  cases block.data.itemCount with
  | some count => rfl
  | none => exact block.inferredCount_wrapping kind

/-- A block has a node exactly if it has a kind and a number of parts, and all its fields
are scalars. -/
theorem node_eq_ok_iff {node : Node} :
    c.node b block = .ok node ↔ c.kind block = .ok (c.kindOf block) ∧
      block.compoundField? = none ∧ (itemCount b block (c.kindOf block)).isOk = true ∧
      node = c.look block := by
  rw [Converter.node, except_bind_eq_ok_iff]
  constructor
  · rintro ⟨kind, hkind, h⟩
    rw [mapError_eq_ok_iff] at hkind
    obtain rfl := eq_kindOf hkind
    split at h
    next => cases h
    next hscalar =>
      rw [except_bind_eq_ok_iff] at h
      obtain ⟨n, hn, h⟩ := h
      refine ⟨hkind, hscalar, by rw [hn]; rfl, ?_⟩
      rw [look, ← itemCount_eq hn]
      exact (Except.ok.inj h).symm
  · rintro ⟨hkind, hscalar, hcount, rfl⟩
    refine ⟨c.kindOf block, by rw [hkind]; rfl, ?_⟩
    obtain ⟨n, hn⟩ := exists_eq_ok_iff.2 hcount
    rw [hscalar, hn, look, ← itemCount_eq hn]
    rfl

theorem eq_look_of_node {node : Node} (h : c.node b block = .ok node) : node = c.look block :=
  (node_eq_ok_iff.1 h).2.2.2

end Build

/-- The block is a group that does not say how many members it has, and one of its slots has
the largest number there is. -/
def Overflows (c : Converter) (block : Block) : Prop :=
  block.data.itemCount = none ∧ Kind.ofTypeName? (c.typeName block) = some .typeGroup ∧
    ∃ e ∈ block.slots, NumberedSlot e.1 Word.maxUnsigned

theorem ofTypeName?_eq_group_iff {c : Converter} {block : Block} :
    Kind.ofTypeName? (c.typeName block) = some .typeGroup ↔ c.kindOf block = .typeGroup := by
  rw [kindOf]
  cases Kind.ofTypeName? (c.typeName block) with
  | none => exact iff_of_false nofun nofun
  | some kind => exact Option.some_inj

theorem exists_numberedSlot_iff {slots : List (String × Block)} {n : Nat} :
    (∃ e ∈ slots, NumberedSlot e.1 n) ↔
      ∃ slot ∈ slots.map Prod.fst, typeIndex? slot = some n := by
  simp only [typeIndex?_eq_some_iff, List.mem_map, exists_exists_and_eq_and]

/-- The node of a block with the links that lead from it, when the block has the given
number. -/
def linked (c : Converter) (id : NodeId) (block : Block) : Node :=
  { c.look block with
    next := block.next.map fun _ => id + 1 + (Block.allInSlots block.slots).length
    slots := .ofList (slotHeads (id + 1) block.slots) }

mutual

/-- The nodes of a block and of everything below and after it, when the block has the
given number. -/
def nodes (c : Converter) (parent prev : Option NodeId) (id : NodeId) : Block → List Node
  | .mk data slots next =>
      { c.linked id (.mk data slots next) with parent := parent, prev := prev } ::
      (c.slotNodes id (id + 1) slots ++
        c.nextNodes id (id + 1 + (Block.allInSlots slots).length) next)

/-- The nodes of the chains in the slots of a node. -/
def slotNodes (c : Converter) (owner id : NodeId) : List (String × Block) → List Node
  | [] => []
  | (_, block) :: rest =>
      c.nodes (some owner) none id block ++ c.slotNodes owner (id + block.all.length) rest

/-- The nodes of the blocks that follow a node. -/
def nextNodes (c : Converter) (before id : NodeId) : Option Block → List Node
  | none => []
  | some block => c.nodes none (some before) id block

end

mutual

theorem length_nodes (c : Converter) : ∀ (parent prev : Option NodeId) (id : NodeId)
    (block : Block), (c.nodes parent prev id block).length = block.all.length
  | _, _, id, .mk data slots next => by
      rw [nodes, Block.all, List.length_cons, List.length_cons, List.length_append,
        List.length_append, length_slotNodes, length_nextNodes]

theorem length_slotNodes (c : Converter) : ∀ (owner id : NodeId)
    (slots : List (String × Block)),
    (c.slotNodes owner id slots).length = (Block.allInSlots slots).length
  | _, _, [] => rfl
  | owner, id, (_, block) :: rest => by
      rw [slotNodes, Block.allInSlots, List.length_append, List.length_append, length_nodes,
        length_slotNodes]

theorem length_nextNodes (c : Converter) : ∀ (before id : NodeId) (next : Option Block),
    (c.nextNodes before id next).length = (Block.allNext next).length
  | _, _, none => rfl
  | before, id, some block => by
      rw [nextNodes, Block.allNext, length_nodes]

end

/-- Only the node of the block itself knows the links that lead to it. -/
theorem exists_nodes_eq_cons (c : Converter) (id : NodeId) (block : Block) :
    ∃ rest, ∀ parent prev, c.nodes parent prev id block =
      { c.linked id block with parent := parent, prev := prev } :: rest := by
  obtain ⟨data, slots, next⟩ := block
  refine ⟨c.slotNodes id (id + 1) slots ++
    c.nextNodes id (id + 1 + (Block.allInSlots slots).length) next, ?_⟩
  intro parent prev
  rw [nodes]

/-- Enter the heads of chains among the slots of a node. -/
def enterSlots (heads : List (String × NodeId)) (node : Node) : Node :=
  { node with slots := heads.foldl (fun t e => t.insert e.1 e.2) node.slots }

theorem attach_nodes (c : Converter) {ws : Workspace} {owner : NodeId} (howner : owner < ws.size)
    {slot : String} (hfree : ws.slot? owner slot = none) (block : Block) :
    (ws.extend (c.nodes none none ws.size block)).attach owner slot ws.size =
      .ok ((ws.update owner (enterSlots [(slot, ws.size)])).extend
        (c.nodes (some owner) none ws.size block)) := by
  obtain ⟨rest, hnodes⟩ := c.exists_nodes_eq_cons ws.size block
  rw [hnodes, hnodes, ws.attach_extend howner hfree]
  rfl

theorem link_nodes (c : Converter) {ws : Workspace} {before : NodeId} (hbefore : before < ws.size)
    (hfree : ws.next? before = none) (block : Block) :
    (ws.extend (c.nodes none none ws.size block)).link before ws.size =
      .ok ((ws.update before fun node => { node with next := some ws.size }).extend
        (c.nodes none (some before) ws.size block)) := by
  obtain ⟨rest, hnodes⟩ := c.exists_nodes_eq_cons ws.size block
  rw [hnodes, hnodes, ws.link_extend hbefore hfree]

/-- A block is placed as its nodes at the end of any workspace, or fails as the first of
its blocks that has no node. -/
def Places {ε : Type} (b : Build ε) (c : Converter) (block : Block) : Prop :=
  ∀ ws : Workspace, c.place b block ws =
    (block.all.mapM (c.node b)).map fun _ => (ws.size, ws.extend (c.nodes none none ws.size block))

variable {ε : Type} {b : Build ε}

theorem slot?_enterSlot {ws : Workspace} {owner : NodeId} {slot name : String} {child : NodeId}
    (hne : slot ≠ name) (hfree : ws.slot? owner name = none) :
    (ws.update owner (enterSlots [(slot, child)])).slot? owner name = none := by
  rw [Workspace.slot?] at hfree ⊢
  rw [Workspace.node?_update, if_pos rfl]
  cases hnode : ws.node? owner with
  | none => rfl
  | some node =>
      rw [hnode] at hfree
      change (node.slots.insert slot child).get? name = none
      rw [Table.get?_insert, if_neg hne.symm]
      exact hfree

/-- The chains in the slots of a node are placed one after the other, and their heads
entered among its slots. -/
theorem placeSlots_eq {c : Converter} (owner : NodeId) {slots : List (String × Block)}
    (hplaces : ∀ e ∈ slots, c.Places b e.2) (hkeys : slots.Pairwise fun a b => a.1 < b.1)
    (ws : Workspace) (howner : owner < ws.size)
    (hfree : ∀ e ∈ slots, ws.slot? owner e.1 = none) :
    c.placeSlots b owner slots ws = ((Block.allInSlots slots).mapM (c.node b)).map fun _ =>
      (ws.update owner (enterSlots (slotHeads ws.size slots))).extend
        (c.slotNodes owner ws.size slots) := by
  induction slots generalizing ws with
  | nil =>
      have hsame : ws.update owner (enterSlots []) = ws := ws.update_id owner
      rw [placeSlots, slotHeads, hsame, slotNodes, Workspace.extend_nil]
      rfl
  | cons e rest ih =>
      obtain ⟨slot, block⟩ := e
      obtain ⟨hslot, hkeys⟩ := List.pairwise_cons.1 hkeys
      have hattach := c.attach_nodes howner (hfree _ List.mem_cons_self) block
      -- The head is plugged in right after its chain is placed, so the next chain is placed
      -- in `grown`, where the owner has one slot less that is free.
      let entered := ws.update owner (enterSlots [(slot, ws.size)])
      have hsize : entered.size = ws.size := ws.size_update owner _
      let grown := entered.extend (c.nodes (some owner) none ws.size block)
      have hgrown : grown.size = ws.size + block.all.length := by
        rw [Workspace.size_extend, hsize, length_nodes]
      have hrest := ih (fun e he => hplaces e (List.mem_cons_of_mem _ he)) hkeys grown
        (Nat.lt_of_lt_of_le howner (by omega)) (by
          intro e he
          rw [Workspace.slot?_extend (hsize ▸ howner)]
          exact slot?_enterSlot (String.ne_of_lt (hslot e he))
            (hfree e (List.mem_cons_of_mem _ he)))
      have hplace : c.placeSlots b owner ((slot, block) :: rest) ws =
          (block.all.mapM (c.node b)) >>= fun _ => c.placeSlots b owner rest grown := by
        rw [placeSlots, hplaces _ List.mem_cons_self ws]
        cases block.all.mapM (c.node b) with
        | error e => rfl
        | ok nodes =>
            change (((ws.extend (c.nodes none none ws.size block)).attach owner slot
              ws.size).mapError b.raise >>= fun ws => c.placeSlots b owner rest ws) = _
            rw [hattach]
            rfl
      have hresult : (grown.update owner (enterSlots (slotHeads grown.size rest))).extend
            (c.slotNodes owner grown.size rest) =
          (ws.update owner (enterSlots (slotHeads ws.size ((slot, block) :: rest)))).extend
            (c.slotNodes owner ws.size ((slot, block) :: rest)) := by
        rw [Workspace.update_extend _ (hsize ▸ howner), Workspace.update_update,
          Workspace.extend_extend, hgrown]
        rfl
      rw [hplace, hrest, hresult, Block.allInSlots, List.mapM_append]
      cases block.all.mapM (c.node b) with
      | error e => rfl
      | ok nodes => cases (Block.allInSlots rest).mapM (c.node b) <;> rfl

/-- The block after a node is placed and linked with it. -/
theorem placeNext_eq {c : Converter} (before : NodeId) {next : Option Block}
    (hplaces : ∀ block, next = some block → c.Places b block) (ws : Workspace)
    (hbefore : before < ws.size) (hfree : ws.next? before = none) :
    c.placeNext b before next ws = ((Block.allNext next).mapM (c.node b)).map fun _ =>
      (ws.update before fun node => { node with next := next.map fun _ => ws.size }).extend
        (c.nextNodes before ws.size next) := by
  cases next with
  | none =>
      have hsame : (ws.update before fun node => { node with next := none }) = ws := by
        refine Workspace.ext_node? rfl ?_
        intro id
        rw [Workspace.node?_update]
        split
        next h =>
          subst h
          rw [Workspace.next?] at hfree
          cases hnode : ws.node? before with
          | none => rfl
          | some node =>
              rw [hnode] at hfree
              have hnone : node.next = none := hfree
              cases node
              obtain rfl := hnone
              rfl
        next => rfl
      rw [placeNext, Option.map_none, hsame, nextNodes, Workspace.extend_nil]
      rfl
  | some block =>
      rw [placeNext, hplaces block rfl ws, Block.allNext]
      cases block.all.mapM (c.node b) with
      | error e => rfl
      | ok nodes => exact congrArg (Except.mapError b.raise) (c.link_nodes hbefore hfree block)

/-- A node of which the slots are filled and the follower is linked, with all of them
after it, makes the nodes of its block. -/
theorem extend_filled (c : Converter) (ws : Workspace) (data : BlockData)
    (slots : List (String × Block)) (next : Option Block) :
    ((((ws.extend [c.look (.mk data slots next)]).update ws.size
        (enterSlots (slotHeads (ws.size + 1) slots))).extend
          (c.slotNodes ws.size (ws.size + 1) slots)).update ws.size fun node =>
            { node with next := next.map fun _ =>
              ws.size + 1 + (Block.allInSlots slots).length }).extend
        (c.nextNodes ws.size (ws.size + 1 + (Block.allInSlots slots).length) next) =
      ws.extend (c.nodes none none ws.size (.mk data slots next)) := by
  have hlt : ws.size < ((ws.extend [c.look (.mk data slots next)]).update ws.size
      (enterSlots (slotHeads (ws.size + 1) slots))).size := by
    rw [Workspace.size_update, Workspace.size_extend]
    exact Nat.lt_succ_self _
  rw [Workspace.update_extend _ hlt, Workspace.update_update, Workspace.update_extend_head,
    Workspace.extend_extend, Workspace.extend_extend]
  rfl

/-- Every block is placed as its nodes. -/
theorem places (c : Converter) {block : Block} (hordered : block.Ordered) :
    c.Places b block := by
  induction block using Block.induct with
  | mk data slots next hslots hnext =>
      obtain ⟨hkeys, hbelow, hafter⟩ := hordered
      intro ws
      let block : Block := .mk data slots next
      -- `bare` has the node alone, `changed` the node with its slots filled, and `entered`
      -- also the chains in them.
      let bare := ws.extend [c.look block]
      have hbare : bare.node? ws.size = some (c.look block) := by
        rw [Workspace.node?_extend, if_neg (Nat.lt_irrefl _), Nat.sub_self]
        rfl
      have hsize : bare.size = ws.size + 1 := ws.size_extend _
      have hself : ws.size < bare.size := hsize ▸ Nat.lt_succ_self _
      have hfree : ∀ e ∈ slots, bare.slot? ws.size e.1 = none := by
        intro e _
        rw [Workspace.slot?, hbare]
        rfl
      have hplaceSlots := placeSlots_eq ws.size
        (fun e he => hslots e he (Block.slotsOrdered_iff.1 hbelow e he)) hkeys bare hself hfree
      let changed := bare.update ws.size (enterSlots (slotHeads (ws.size + 1) slots))
      have hchanged : ws.size < changed.size := by
        rw [Workspace.size_update]
        exact hself
      let entered := changed.extend (c.slotNodes ws.size (ws.size + 1) slots)
      have hentered : entered.size = ws.size + 1 + (Block.allInSlots slots).length := by
        rw [Workspace.size_extend, Workspace.size_update, hsize, length_slotNodes]
      have hlt : ws.size < entered.size := by
        rw [hentered]
        exact Nat.lt_add_right _ (Nat.lt_succ_self _)
      have hlast : entered.next? ws.size = none := by
        rw [Workspace.next?_extend hchanged, Workspace.next?, Workspace.node?_update, if_pos rfl,
          hbare]
        rfl
      have hplaceNext := placeNext_eq ws.size
        (fun block hblock => hnext block hblock (by subst hblock; exact hafter)) entered hlt hlast
      rw [hentered, extend_filled] at hplaceNext
      have hplace : c.place b block ws = c.node b block >>= fun _ =>
          (Block.allInSlots slots).mapM (c.node b) >>= fun _ =>
            (Block.allNext next).mapM (c.node b) >>= fun _ =>
              .ok (ws.size, ws.extend (c.nodes none none ws.size block)) := by
        rw [place]
        cases hnode : c.node b block with
        | error e => rfl
        | ok node =>
            obtain rfl := eq_look_of_node hnode
            change (c.placeSlots b ws.size slots (ws.add (c.look block)) >>= fun ws' =>
              c.placeNext b ws.size next ws' >>= fun ws' => .ok (ws.size, ws')) = _
            rw [Workspace.add_eq_extend, hplaceSlots, hsize]
            cases (Block.allInSlots slots).mapM (c.node b) with
            | error e => rfl
            | ok below =>
                change (c.placeNext b ws.size next entered >>= fun ws' => .ok (ws.size, ws')) = _
                rw [hplaceNext]
                cases (Block.allNext next).mapM (c.node b) <;> rfl
      rw [hplace, Block.all, List.mapM_cons, List.mapM_append]
      cases c.node b block with
      | error e => rfl
      | ok node =>
          cases (Block.allInSlots slots).mapM (c.node b) with
          | error e => rfl
          | ok below => cases (Block.allNext next).mapM (c.node b) <;> rfl

/-- The numbers of the heads of the chains on the surface, from the given number on. -/
def topIds : NodeId → List Block → List NodeId
  | _, [] => []
  | id, block :: rest => id :: topIds (id + block.all.length) rest

theorem le_of_mem_topIds {first id : NodeId} {blocks : List Block}
    (h : id ∈ topIds first blocks) : first ≤ id := by
  induction blocks generalizing first with
  | nil => cases h
  | cons block rest ih =>
      rcases List.mem_cons.1 h with rfl | h
      · exact Nat.le_refl _
      · exact Nat.le_trans (Nat.le_add_right _ _) (ih h)

theorem nodup_topIds (first : NodeId) (blocks : List Block) : (topIds first blocks).Nodup := by
  induction blocks generalizing first with
  | nil => exact List.nodup_nil
  | cons block rest ih =>
      refine List.nodup_cons.2 ⟨?_, ih _⟩
      intro hmem
      have hle := le_of_mem_topIds hmem
      have hpos := block.length_all_pos
      exact absurd hle (Nat.not_le_of_lt (Nat.lt_add_of_pos_right hpos))

/-- The nodes of the chains on the surface, from the given number on. -/
def topNodes (c : Converter) : NodeId → List Block → List Node
  | _, [] => []
  | id, block :: rest => c.nodes none none id block ++ c.topNodes (id + block.all.length) rest

theorem length_topNodes (c : Converter) (id : NodeId) (blocks : List Block) :
    (c.topNodes id blocks).length = (blocks.flatMap Block.all).length := by
  induction blocks generalizing id with
  | nil => rfl
  | cons block rest ih =>
      rw [topNodes, List.flatMap_cons, List.length_append, List.length_append, length_nodes, ih]

/-- The workspace of some blocks, written down at once. -/
def numbered (c : Converter) (blocks : List Block) : Workspace where
  nodes := (c.topNodes 0 blocks).toArray
  top := topIds 0 blocks

theorem placeAll_eq {c : Converter} {blocks : List Block}
    (hordered : ∀ block ∈ blocks, block.Ordered) (ws : Workspace)
    (htop : ∀ id ∈ ws.top, id < ws.size) :
    c.placeAll b blocks ws = ((blocks.flatMap Block.all).mapM (c.node b)).map fun _ =>
      { ws.extend (c.topNodes ws.size blocks) with top := ws.top ++ topIds ws.size blocks } := by
  induction blocks generalizing ws with
  | nil =>
      rw [placeAll, topNodes, topIds, List.append_nil, Workspace.extend_nil]
      rfl
  | cons block rest ih =>
      let placed : Workspace :=
        { ws.extend (c.nodes none none ws.size block) with top := ws.top ++ [ws.size] }
      have hsize : placed.size = ws.size + block.all.length := by
        rw [← c.length_nodes none none ws.size block]
        exact ws.size_extend _
      have hfresh : ws.size ∉ ws.top := fun hmem => Nat.lt_irrefl _ (htop _ hmem)
      have htop' : ∀ id ∈ placed.top, id < placed.size := by
        intro id hid
        rw [hsize]
        rcases List.mem_append.1 hid with hid | hid
        · exact Nat.lt_add_right _ (htop id hid)
        · rw [List.mem_singleton] at hid
          subst hid
          exact Nat.lt_add_of_pos_right block.length_all_pos
      have hrest := ih (fun block hblock => hordered block (List.mem_cons_of_mem _ hblock)) placed
        htop'
      have hresult : { placed.extend (c.topNodes placed.size rest) with
            top := placed.top ++ topIds placed.size rest } =
          { ws.extend (c.topNodes ws.size (block :: rest)) with
            top := ws.top ++ topIds ws.size (block :: rest) } := by
        have htops : placed.top ++ topIds placed.size rest =
            ws.top ++ topIds ws.size (block :: rest) := by
          rw [topIds, hsize]
          exact List.append_assoc _ _ _
        rw [htops, topNodes, ← ws.extend_extend, hsize]
        rfl
      have hplace : c.placeAll b (block :: rest) ws =
          (block.all.mapM (c.node b)) >>= fun _ => c.placeAll b rest placed := by
        rw [placeAll, places c (hordered _ List.mem_cons_self) ws]
        cases block.all.mapM (c.node b) with
        | error e => rfl
        | ok nodes =>
            change c.placeAll b rest
              ((ws.extend (c.nodes none none ws.size block)).placeOnTop ws.size) = _
            rw [Workspace.placeOnTop, Workspace.top_extend, if_neg hfresh]
            rfl
      rw [hplace, hrest, hresult, List.flatMap_cons, List.mapM_append]
      cases block.all.mapM (c.node b) with
      | error e => rfl
      | ok nodes => cases (rest.flatMap Block.all).mapM (c.node b) <;> rfl

/-- A tree becomes its numbered nodes, or fails as the first of its blocks that has no
node. -/
theorem convertIn_eq (c : Converter) (tree : EditorTree) :
    c.convertIn b tree = (tree.all.mapM (c.node b)).map fun _ => c.numbered tree.blocks := by
  have htop : ∀ id ∈ Workspace.empty.top, id < Workspace.empty.size := by
    intro id hid
    cases hid
  have hnumbered : { Workspace.empty.extend (c.topNodes 0 tree.blocks) with
      top := Workspace.empty.top ++ topIds 0 tree.blocks } = c.numbered tree.blocks := by
    simp [Workspace.extend, Workspace.empty, numbered]
  rw [convertIn, placeAll_eq tree.ordered .empty htop, EditorTree.all, ← hnumbered]
  rfl

theorem convertIn_eq_ok_iff {c : Converter} {tree : EditorTree} {ws : Workspace} :
    c.convertIn b tree = .ok ws ↔
      (∀ block ∈ tree.all, c.node b block = .ok (c.look block)) ∧ ws = c.numbered tree.blocks := by
  rw [convertIn_eq]
  constructor
  · intro h
    cases hall : tree.all.mapM (c.node b) with
    | error e =>
        rw [hall] at h
        cases h
    | ok nodes =>
        rw [hall] at h
        refine ⟨?_, (Except.ok.inj h).symm⟩
        intro block hblock
        obtain ⟨node, hnode⟩ := exists_of_mapM_eq_ok hall hblock
        rw [hnode, eq_look_of_node hnode]
  · rintro ⟨hall, rfl⟩
    rw [mapM_eq_ok hall]
    rfl

theorem convert_crowded : ({} : Converter).convert .crowded =
    .ok (({} : Converter).numbered EditorTree.crowded.blocks) := by
  decide +kernel

/-- Whether a block has a node is up to its own data and the names of its slots.  It still
has one when some of its slots are gone. -/
theorem node_of_data {c : Converter} {block other : Block} (hdata : other.data = block.data)
    (hslots : other.slots.map Prod.fst ⊆ block.slots.map Prod.fst)
    (h : c.node b block = .ok (c.look block)) : c.node b other = .ok (c.look other) := by
  obtain ⟨hkind, hscalar, hcount, -⟩ := node_eq_ok_iff.1 h
  have htype : c.typeName other = c.typeName block := by rw [typeName, typeName, hdata]
  have hsame : c.kind other = c.kind block := by rw [kind, kind, htype, hdata]
  have hkindOf : c.kindOf other = c.kindOf block := by rw [kindOf, kindOf, htype]
  refine node_eq_ok_iff.2 ⟨?_, ?_, ?_, rfl⟩
  · rw [hsame, hkindOf, hkind]
  · rw [Block.compoundField?, hdata]
    exact hscalar
  · rw [hkindOf, itemCount, hdata]
    rw [itemCount] at hcount
    cases hdeclared : block.data.itemCount with
    | some count => rfl
    | none =>
        rw [hdeclared] at hcount
        exact Block.isOk_inferredCount_of_subset hslots hcount

/-- A tree whose blocks have the data of blocks of a tree that converts, and no slots that
these lack, does so too. -/
theorem convertIn_of_data {c : Converter} {tree tree' : EditorTree} {ws : Workspace}
    (h : c.convertIn b tree = .ok ws)
    (hdata : ∀ other ∈ tree'.all, ∃ block ∈ tree.all, other.data = block.data ∧
      other.slots.map Prod.fst ⊆ block.slots.map Prod.fst) :
    ∃ ws', c.convertIn b tree' = .ok ws' := by
  refine ⟨_, convertIn_eq_ok_iff.2 ⟨?_, rfl⟩⟩
  intro other hother
  obtain ⟨block, hblock, hsame, hslots⟩ := hdata other hother
  exact node_of_data hsame hslots ((convertIn_eq_ok_iff.1 h).1 block hblock)

end Converter

end BlockForge
