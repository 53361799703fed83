import BlockForge.Workspace.TypeTree

/-!
Walks along the links of a workspace.

Where the nodes have ranks that rise along every link forwards and fall along every
link backwards, a walk is at its end before it has used up its steps.  So each walk
obeys the equation of the walk without a bound: `chain_some`, `surrounding?_eq`,
`isEnabled_eq` and `typeNamesWithin_size`.
-/

namespace BlockForge

/-- The names that a node stands for, given what its slots stand for. -/
def Node.namesWith (node : Node) (members : String → Except GenerationError (List String)) :
    Except GenerationError (List String) :=
  match node.kind with
  | .typeGroup => do
      let names ← (List.range node.itemCount).mapM fun i => members (memberSlot i)
      .ok names.flatten.eraseDups
  | _ => node.typeNames

namespace Workspace

/-- Slots and `next` links lead to nodes of higher rank, `prev` and `parent` links to
nodes of lower rank, and there are no more ranks than nodes. -/
structure Graded (ws : Workspace) (rank : NodeId → Nat) : Prop where
  rank_lt : ∀ id < ws.size, rank id < ws.size
  next : ∀ id after, ws.next? id = some after → after < ws.size ∧ rank id < rank after
  slot : ∀ id name child, ws.slot? id name = some child →
    child < ws.size ∧ rank id < rank child
  prev : ∀ id node before, ws.node? id = some node → node.prev = some before →
    before < ws.size ∧ rank before < rank id
  parent : ∀ id node owner, ws.node? id = some node → node.parent = some owner →
    owner < ws.size ∧ rank owner < rank id

variable {ws : Workspace} {rank : NodeId → Nat} {id : NodeId} {node : Node}

theorem lt_size_of_node? (h : ws.node? id = some node) : id < ws.size :=
  (Array.getElem?_eq_some_iff.1 h).1

theorem chainWithin_none (steps : Nat) : ws.chainWithin steps none = [] := by
  cases steps <;> rfl

@[simp] theorem chain_none : ws.chain none = [] :=
  chainWithin_none ws.size

theorem Graded.chainWithin_eq (h : ws.Graded rank) (hid : id < ws.size) {m n : Nat}
    (hm : ws.size ≤ m + rank id) (hn : ws.size ≤ n + rank id) :
    ws.chainWithin m (some id) = ws.chainWithin n (some id) := by
  induction m generalizing n id with
  | zero =>
      have := h.rank_lt id hid
      omega
  | succ m ih =>
      cases n with
      | zero =>
          have := h.rank_lt id hid
          omega
      | succ n =>
          rw [chainWithin, chainWithin]
          cases hnext : ws.next? id with
          | none => rw [chainWithin_none, chainWithin_none]
          | some after =>
              obtain ⟨hafter, hrank⟩ := h.next id after hnext
              rw [ih hafter (n := n) (by omega) (by omega)]

/-- A chain is its head and the chain after it. -/
theorem Graded.chain_some (h : ws.Graded rank) (hid : id < ws.size) :
    ws.chain (some id) = id :: ws.chain (ws.next? id) := by
  have hmore := h.chainWithin_eq hid (m := ws.size) (n := ws.size + 1) (by omega) (by omega)
  rw [chain, hmore, chainWithin]
  rfl

/-- A chain that goes through a node goes on with the node after it. -/
theorem Graded.mem_chain_next (h : ws.Graded rank) {head after : NodeId} (hhead : head < ws.size)
    (hmem : id ∈ ws.chain (some head)) (hafter : ws.next? id = some after) :
    after ∈ ws.chain (some head) := by
  have hstep : ∀ steps head, id ∈ ws.chainWithin steps head →
      after ∈ ws.chainWithin (steps + 1) head := by
    intro steps
    induction steps with
    | zero => intro head hmem; cases hmem
    | succ steps ih =>
        intro head hmem
        cases head with
        | none => cases hmem
        | some head =>
            rw [chainWithin] at hmem ⊢
            refine List.mem_cons_of_mem _ ?_
            rcases List.mem_cons.1 hmem with rfl | hmem
            · rw [hafter, chainWithin]
              exact List.mem_cons_self
            · exact ih _ hmem
  rw [chain, h.chainWithin_eq hhead (n := ws.size + 1) (by omega) (by omega)]
  exact hstep ws.size (some head) hmem

theorem Graded.surroundingWithin_eq (h : ws.Graded rank) {m n : Nat} (hm : rank id < m)
    (hn : rank id < n) : ws.surroundingWithin m id = ws.surroundingWithin n id := by
  induction m generalizing n id with
  | zero => omega
  | succ m ih =>
      cases n with
      | zero => omega
      | succ n =>
          rw [surroundingWithin, surroundingWithin]
          cases hnode : ws.node? id with
          | none => rfl
          | some node =>
              dsimp only
              split
              next => rfl
              next before _ hprev =>
                have hrank := (h.prev id node before hnode hprev).2
                exact ih (by omega) (by omega)
              next => rfl

/-- What surrounds a node, one step backwards at a time. -/
theorem Graded.surrounding?_eq (h : ws.Graded rank) (hnode : ws.node? id = some node) :
    ws.surrounding? id = node.parent.or (node.prev.bind ws.surrounding?) := by
  have hrank := h.rank_lt id (lt_size_of_node? hnode)
  have hmore := h.surroundingWithin_eq (m := ws.size) (n := ws.size + 1) hrank (by omega)
  rw [surrounding?, hmore, surroundingWithin, hnode]
  dsimp only
  cases node.parent with
  | some owner => rfl
  | none => cases node.prev <;> rfl

theorem Graded.surroundingWithin_lt (h : ws.Graded rank) {steps : Nat} {owner : NodeId}
    (howner : ws.surroundingWithin steps id = some owner) :
    owner < ws.size ∧ rank owner < rank id := by
  induction steps generalizing id with
  | zero => cases howner
  | succ steps ih =>
      rw [surroundingWithin] at howner
      split at howner
      next => cases howner
      next node hnode =>
        split at howner
        next parent _ hparent =>
          obtain rfl := Option.some.inj howner
          exact h.parent id node _ hnode hparent
        next before _ hprev =>
          have hbefore := (h.prev id node before hnode hprev).2
          obtain ⟨hlt, hrank⟩ := ih howner
          exact ⟨hlt, Nat.lt_trans hrank hbefore⟩
        next => cases howner

theorem Graded.surrounding_lt (h : ws.Graded rank) {owner : NodeId}
    (howner : ws.surrounding? id = some owner) : owner < ws.size ∧ rank owner < rank id :=
  h.surroundingWithin_lt howner

theorem Graded.enabledWithin_eq (h : ws.Graded rank) {m n : Nat} (hm : rank id < m)
    (hn : rank id < n) : ws.enabledWithin m id = ws.enabledWithin n id := by
  induction m generalizing n id with
  | zero => omega
  | succ m ih =>
      cases n with
      | zero => omega
      | succ n =>
          rw [enabledWithin, enabledWithin]
          cases howner : ws.surrounding? id with
          | none => rfl
          | some owner =>
              have hrank := (h.surrounding_lt howner).2
              dsimp only
              rw [ih (n := n) (by omega) (by omega)]

/-- A node is enabled when it is switched on and the node around it is enabled. -/
theorem Graded.isEnabled_eq (h : ws.Graded rank) (hid : id < ws.size) :
    ws.isEnabled id = (!ws.isDisabled id && (ws.surrounding? id).all ws.isEnabled) := by
  have hrank := h.rank_lt id hid
  have hmore := h.enabledWithin_eq (m := ws.size) (n := ws.size + 1) hrank (by omega)
  rw [isEnabled, hmore, enabledWithin]
  cases ws.isDisabled id with
  | true => rfl
  | false =>
      cases ws.surrounding? id with
      | none => rfl
      | some owner => rfl

/-- One step into the type tree of a slot, given what the slots of nodes stand for. -/
def typeNamesStep (ws : Workspace)
    (members : NodeId → String → Except GenerationError (List String)) (owner : NodeId)
    (slot : String) : Except GenerationError (List String) :=
  match ws.slot? owner slot with
  | none => .ok []
  | some child =>
      if ws.isEnabled owner && ws.isEnabled child then
        match ws.node? child with
        | none => .ok []
        | some node => node.namesWith (members child)
      else .ok []

theorem typeNamesWithin_succ (depth : Nat) (owner : NodeId) (slot : String) :
    ws.typeNamesWithin (depth + 1) owner slot =
      ws.typeNamesStep (ws.typeNamesWithin depth) owner slot :=
  rfl

/-- A step asks only about the slots of the occupant of its own slot. -/
theorem typeNamesStep_congr {owner : NodeId} {slot : String}
    {members members' : NodeId → String → Except GenerationError (List String)}
    (h : ∀ child, ws.slot? owner slot = some child → members child = members' child) :
    ws.typeNamesStep members owner slot = ws.typeNamesStep members' owner slot := by
  rw [typeNamesStep, typeNamesStep]
  cases hslot : ws.slot? owner slot with
  | none => rfl
  | some child =>
      dsimp only
      rw [h child hslot]

theorem typeNamesWithin_of_slot_eq_none (depth : Nat) {owner : NodeId} {slot : String}
    (h : ws.slot? owner slot = none) : ws.typeNamesWithin depth owner slot = .ok [] := by
  cases depth with
  | zero => rfl
  | succ depth => rw [typeNamesWithin, h]

theorem lt_size_of_next? {after : NodeId} (h : ws.next? id = some after) : id < ws.size := by
  obtain ⟨node, hnode, _⟩ := Option.bind_eq_some_iff.1 h
  exact lt_size_of_node? hnode

theorem lt_size_of_slot? {owner child : NodeId} {slot : String}
    (h : ws.slot? owner slot = some child) : owner < ws.size := by
  obtain ⟨node, hnode, _⟩ := Option.bind_eq_some_iff.1 h
  exact lt_size_of_node? hnode

theorem Graded.typeNamesWithin_eq (h : ws.Graded rank) {m n : Nat} {owner : NodeId}
    (slot : String) (hm : ws.size ≤ m + rank owner) (hn : ws.size ≤ n + rank owner) :
    ws.typeNamesWithin m owner slot = ws.typeNamesWithin n owner slot := by
  induction m generalizing n owner slot with
  | zero =>
      cases hslot : ws.slot? owner slot with
      | none =>
          rw [typeNamesWithin_of_slot_eq_none _ hslot, typeNamesWithin_of_slot_eq_none _ hslot]
      | some child =>
          have := h.rank_lt owner (lt_size_of_slot? hslot)
          omega
  | succ m ih =>
      cases hslot : ws.slot? owner slot with
      | none =>
          rw [typeNamesWithin_of_slot_eq_none _ hslot, typeNamesWithin_of_slot_eq_none _ hslot]
      | some child =>
          obtain ⟨_, hchild⟩ := h.slot owner slot child hslot
          have hrank := h.rank_lt owner (lt_size_of_slot? hslot)
          cases n with
          | zero => omega
          | succ n =>
              rw [typeNamesWithin_succ, typeNamesWithin_succ]
              apply typeNamesStep_congr
              intro child' hslot'
              obtain rfl := Option.some.inj (hslot.symm.trans hslot')
              funext name
              exact ih name (by omega) (by omega)

/-- The names of a type tree, one group at a time. -/
theorem Graded.typeNamesWithin_size (h : ws.Graded rank) (owner : NodeId) (slot : String) :
    ws.typeNamesWithin ws.size owner slot =
      ws.typeNamesStep (ws.typeNamesWithin ws.size) owner slot :=
  h.typeNamesWithin_eq slot (n := ws.size + 1) (by omega) (by omega)

section Update

variable {α : Type} {change : Node → Node}

theorem bind_update_of_keeps (ws : Workspace) (id id' : NodeId) {f : Node → Option α}
    (hkeeps : ∀ node, f (change node) = f node) :
    ((ws.update id change).node? id').bind f = (ws.node? id').bind f := by
  rw [node?_update]
  split
  · rw [Option.bind_map, show f ∘ change = f from funext hkeeps]
  · rfl

/-- The walk backwards does not see a change that keeps the links backwards. -/
theorem surrounding?_update_of_keeps (ws : Workspace) (id id' : NodeId)
    (hparent : ∀ node, (change node).parent = node.parent)
    (hprev : ∀ node, (change node).prev = node.prev) :
    (ws.update id change).surrounding? id' = ws.surrounding? id' := by
  have hsteps : ∀ steps id', (ws.update id change).surroundingWithin steps id' =
      ws.surroundingWithin steps id' := by
    intro steps
    induction steps with
    | zero => exact fun _ => rfl
    | succ steps ih =>
        intro id'
        rw [surroundingWithin, surroundingWithin, node?_update]
        rcases ws.node? id' with _ | node
        · simp
        · by_cases hid : id = id'
          · simp only [if_pos hid, Option.map_some, hparent, hprev, ih]
          · simp only [if_neg hid, ih]
  rw [surrounding?, surrounding?, hsteps, size_update]

theorem isEnabled_update_of_keeps (ws : Workspace) (id id' : NodeId)
    (hparent : ∀ node, (change node).parent = node.parent)
    (hprev : ∀ node, (change node).prev = node.prev)
    (hdisabled : ∀ node, (change node).disabled = node.disabled) :
    (ws.update id change).isEnabled id' = ws.isEnabled id' := by
  have hoff (id' : NodeId) : (ws.update id change).isDisabled id' = ws.isDisabled id' := by
    rw [isDisabled, isDisabled, node?_update]
    split
    · rcases ws.node? id' with _ | node
      · rfl
      · exact hdisabled node
    · rfl
  have hsteps : ∀ steps id', (ws.update id change).enabledWithin steps id' =
      ws.enabledWithin steps id' := by
    intro steps
    induction steps with
    | zero => exact fun _ => rfl
    | succ steps ih =>
        intro id'
        simp only [enabledWithin, hoff, surrounding?_update_of_keeps ws id _ hparent hprev, ih]
  rw [isEnabled, isEnabled, hsteps, size_update]

theorem chain_update_of_keeps (ws : Workspace) (id : NodeId) (head : Option NodeId)
    (hnext : ∀ node, (change node).next = node.next) :
    (ws.update id change).chain head = ws.chain head := by
  have hsteps : ∀ steps head, (ws.update id change).chainWithin steps head =
      ws.chainWithin steps head := by
    intro steps
    induction steps with
    | zero => exact fun _ => rfl
    | succ steps ih =>
        intro head
        rcases head with _ | head
        · rfl
        · rw [chainWithin, chainWithin, ih, next?, bind_update_of_keeps ws id head hnext, next?]
  rw [chain, chain, hsteps, size_update]

end Update

end Workspace

end BlockForge
