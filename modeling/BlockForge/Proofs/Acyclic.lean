import BlockForge.Proofs.Walks
import Mathlib.Data.Finset.Card
import Mathlib.Data.Finset.Range
import Mathlib.Logic.Relation

/-!
Acyclic workspaces.

The links of an acyclic workspace close no cycle.  Its nodes then have ranks: the rank of
a node is the number of nodes from which links lead to it.  `Surrounds` and `Off` say
which node lies around another one and which are switched off, by following links for as
long as there are any.
-/

namespace BlockForge.Workspace

/-- A link between two nodes, read from the outer or earlier node to the inner or later
one, whichever of the two holds it. -/
inductive Links (ws : Workspace) : NodeId → NodeId → Prop where
  | next {id after : NodeId} (h : ws.next? id = some after) : Links ws id after
  | slot {id child : NodeId} {name : String} (h : ws.slot? id name = some child) :
      Links ws id child
  | prev {id before : NodeId} {node : Node} (hnode : ws.node? id = some node)
      (h : node.prev = some before) : Links ws before id
  | parent {id owner : NodeId} {node : Node} (hnode : ws.node? id = some node)
      (h : node.parent = some owner) : Links ws owner id

/-- The links lead to nodes of the workspace and close no cycle. -/
structure Acyclic (ws : Workspace) : Prop where
  inRange : ∀ a b, ws.Links a b → a < ws.size ∧ b < ws.size
  noCycle : ∀ id, ¬ Relation.TransGen ws.Links id id

variable {ws : Workspace} {rank : NodeId → Nat} {id owner : NodeId}

open scoped Classical in
/-- The nodes from which links lead to a node. -/
noncomputable def above (ws : Workspace) (id : NodeId) : Finset NodeId :=
  (Finset.range ws.size).filter fun a => Relation.TransGen ws.Links a id

theorem mem_above_iff {a : NodeId} :
    a ∈ ws.above id ↔ a < ws.size ∧ Relation.TransGen ws.Links a id := by
  classical
  rw [above, Finset.mem_filter, Finset.mem_range]

theorem Acyclic.above_ssubset (h : ws.Acyclic) {a b : NodeId} (hlink : ws.Links a b) :
    ws.above a ⊂ ws.above b := by
  rw [Finset.ssubset_iff_of_subset]
  · refine ⟨a, mem_above_iff.2 ⟨(h.inRange a b hlink).1, .single hlink⟩, ?_⟩
    exact fun hmem => h.noCycle a (mem_above_iff.1 hmem).2
  · intro c hc
    obtain ⟨hlt, hpath⟩ := mem_above_iff.1 hc
    exact mem_above_iff.2 ⟨hlt, hpath.tail hlink⟩

/-- The nodes of an acyclic workspace have ranks. -/
theorem Acyclic.graded (h : ws.Acyclic) : ws.Graded fun id => (ws.above id).card where
  rank_lt id hid := by
    have hnot : ws.above id ⊂ Finset.range ws.size := by
      have hsubset : ws.above id ⊆ Finset.range ws.size :=
        fun a ha => Finset.mem_range.2 (mem_above_iff.1 ha).1
      rw [Finset.ssubset_iff_of_subset hsubset]
      exact ⟨id, Finset.mem_range.2 hid, fun hmem => h.noCycle id (mem_above_iff.1 hmem).2⟩
    simpa using Finset.card_lt_card hnot
  next id after hafter :=
    ⟨(h.inRange id after (.next hafter)).2, Finset.card_lt_card (h.above_ssubset (.next hafter))⟩
  slot id name child hchild :=
    ⟨(h.inRange id child (.slot hchild)).2, Finset.card_lt_card (h.above_ssubset (.slot hchild))⟩
  prev id node before hnode hbefore :=
    ⟨(h.inRange before id (.prev hnode hbefore)).1,
      Finset.card_lt_card (h.above_ssubset (.prev hnode hbefore))⟩
  parent id node owner hnode howner :=
    ⟨(h.inRange owner id (.parent hnode howner)).1,
      Finset.card_lt_card (h.above_ssubset (.parent hnode howner))⟩

theorem Graded.links (h : ws.Graded rank) {a b : NodeId} (hlink : ws.Links a b) :
    a < ws.size ∧ b < ws.size ∧ rank a < rank b := by
  cases hlink with
  | next hafter => exact ⟨lt_size_of_next? hafter, h.next a b hafter⟩
  | slot hchild => exact ⟨lt_size_of_slot? hchild, h.slot a _ b hchild⟩
  | prev hnode hbefore =>
      obtain ⟨hlt, hrank⟩ := h.prev b _ a hnode hbefore
      exact ⟨hlt, lt_size_of_node? hnode, hrank⟩
  | parent hnode howner =>
      obtain ⟨hlt, hrank⟩ := h.parent b _ a hnode howner
      exact ⟨hlt, lt_size_of_node? hnode, hrank⟩

/-- Where nodes have ranks, links close no cycle. -/
theorem Graded.acyclic (h : ws.Graded rank) : ws.Acyclic where
  inRange _ _ hlink := ⟨(h.links hlink).1, (h.links hlink).2.1⟩
  noCycle id hcycle := by
    have hrises {b : NodeId} (hpath : Relation.TransGen ws.Links id b) : rank id < rank b := by
      induction hpath with
      | single hlink => exact (h.links hlink).2.2
      | tail _ hlink ih => exact Nat.lt_trans ih (h.links hlink).2.2
    exact Nat.lt_irrefl _ (hrises hcycle)

/-- Whether the links of a node lead forwards to greater numbers and backwards to smaller
ones. -/
def ascendsAt (ws : Workspace) (id : NodeId) (node : Node) : Bool :=
  node.next.all (fun after => id < after && after < ws.size) &&
    node.slots.entries.all (fun entry => id < entry.2 && entry.2 < ws.size) &&
    node.prev.all (· < id) && node.parent.all (· < id)

/-- Whether all links do.  That much can be computed, and is enough. -/
def isAscending (ws : Workspace) : Bool :=
  (List.range ws.size).all fun id => (ws.node? id).all (ws.ascendsAt id)

theorem graded_of_isAscending (h : ws.isAscending = true) : ws.Graded fun id => id := by
  have hlinks {id : NodeId} {node : Node} (hfound : ws.node? id = some node) :
      ws.ascendsAt id node = true := by
    have hid := List.all_eq_true.1 h id (List.mem_range.2 (lt_size_of_node? hfound))
    rwa [hfound] at hid
  simp only [ascendsAt, Bool.and_eq_true, Option.all_eq_true, List.all_eq_true,
    decide_eq_true_eq] at hlinks
  refine ⟨fun id hid => hid, ?_, ?_, ?_, ?_⟩
  · intro id after hafter
    obtain ⟨node, hfound, hnext⟩ := Option.bind_eq_some_iff.1 hafter
    exact ((hlinks hfound).1.1.1 after hnext).symm
  · intro id name child hchild
    obtain ⟨node, hfound, hslot⟩ := Option.bind_eq_some_iff.1 hchild
    exact ((hlinks hfound).1.1.2 (name, child) (Table.mem_of_find hslot)).symm
  · intro id node before hfound hprev
    have hlt := (hlinks hfound).1.2 before hprev
    exact ⟨Nat.lt_trans hlt (lt_size_of_node? hfound), hlt⟩
  · intro id node owner hfound hparent
    have hlt := (hlinks hfound).2 owner hparent
    exact ⟨Nat.lt_trans hlt (lt_size_of_node? hfound), hlt⟩

/-- One node lies around another one: it is the parent of the nearest node, going back
along the chain, that has one. -/
inductive Surrounds (ws : Workspace) (owner : NodeId) : NodeId → Prop where
  | parent {id : NodeId} {node : Node} (hnode : ws.node? id = some node)
      (hparent : node.parent = some owner) : Surrounds ws owner id
  | prev {id before : NodeId} {node : Node} (hnode : ws.node? id = some node)
      (hparent : node.parent = none) (hprev : node.prev = some before)
      (h : Surrounds ws owner before) : Surrounds ws owner id

/-- A node is off when it is switched off or lies in one that is off. -/
inductive Off (ws : Workspace) : NodeId → Prop where
  | itself {id : NodeId} (h : ws.isDisabled id = true) : Off ws id
  | within {id owner : NodeId} (howner : ws.Surrounds owner id) (h : Off ws owner) : Off ws id

theorem surrounds_of_surroundingWithin {steps : Nat}
    (h : ws.surroundingWithin steps id = some owner) : ws.Surrounds owner id := by
  induction steps generalizing id with
  | zero => cases h
  | succ steps ih =>
      rw [surroundingWithin] at h
      split at h
      next => cases h
      next node hnode =>
        split at h
        next hparent =>
          obtain rfl := Option.some.inj h
          exact .parent hnode hparent
        next hparent hprev => exact .prev hnode hparent hprev (ih h)
        next => cases h

/-- The search for the surrounding node finds it. -/
theorem Graded.surrounding?_eq_some_iff (h : ws.Graded rank) :
    ws.surrounding? id = some owner ↔ ws.Surrounds owner id := by
  constructor
  · exact surrounds_of_surroundingWithin
  · intro hsurrounds
    induction hsurrounds with
    | parent hnode hparent => rw [h.surrounding?_eq hnode, hparent, Option.some_or]
    | prev hnode hparent hprev _ ih =>
        rw [h.surrounding?_eq hnode, hparent, hprev, Option.none_or, Option.bind_some, ih]

theorem off_of_enabledWithin {steps : Nat} (h : ws.enabledWithin steps id = false) :
    ws.Off id := by
  induction steps generalizing id with
  | zero => cases h
  | succ steps ih =>
      rw [enabledWithin] at h
      split at h
      next hdisabled => exact .itself hdisabled
      next =>
        split at h
        next howner => exact .within (surrounds_of_surroundingWithin howner) (ih h)
        next => cases h

/-- A node is enabled exactly when neither it nor a node around it is switched off. -/
theorem Graded.isEnabled_eq_false_iff (h : ws.Graded rank) :
    ws.isEnabled id = false ↔ ws.Off id := by
  constructor
  · exact off_of_enabledWithin
  · intro hoff
    induction hoff with
    | @itself id hdisabled =>
        have hid : id < ws.size := by
          cases hnode : ws.node? id with
          | none =>
              rw [isDisabled, hnode] at hdisabled
              cases hdisabled
          | some node => exact lt_size_of_node? hnode
        rw [h.isEnabled_eq hid, hdisabled, Bool.not_true, Bool.false_and]
    | @within id owner hsurrounds _ ih =>
        have hid : id < ws.size := by
          cases hsurrounds with
          | parent hnode _ => exact lt_size_of_node? hnode
          | prev hnode _ _ _ => exact lt_size_of_node? hnode
        rw [h.isEnabled_eq hid, h.surrounding?_eq_some_iff.2 hsurrounds, Option.all_some, ih,
          Bool.and_false]

theorem Graded.isEnabled_eq_true_iff (h : ws.Graded rank) :
    ws.isEnabled id = true ↔ ¬ ws.Off id := by
  rw [← h.isEnabled_eq_false_iff, Bool.not_eq_false]

end BlockForge.Workspace
