import BlockForge.Proofs.Acyclic
import BlockForge.Workspace.Script

/-!
Workspaces built by edits.

Plugging a node in or linking it a second time overwrites its back link, while the forward
link of before stays.  So the two kinds of links are not inverse to each other.  But each
back link goes against a forward link, unless its node was added with it, as a copy of a
linked node is (`Backed`): every edit preserves that.  Where no node was added with a back
link, the workspace is therefore acyclic as soon as its forward links close no cycle.
-/

namespace BlockForge.Workspace

/-- A slot or a `next` link of a node. -/
inductive Forward (ws : Workspace) : NodeId → NodeId → Prop where
  | next {id after : NodeId} (h : ws.next? id = some after) : Forward ws id after
  | slot {id child : NodeId} {name : String} (h : ws.slot? id name = some child) :
      Forward ws id child

/-- The node before another one, as it says itself. -/
def prev? (ws : Workspace) (id : NodeId) : Option NodeId :=
  (ws.node? id).bind Node.prev

/-- The node that another one is plugged into, as it says itself. -/
def parent? (ws : Workspace) (id : NodeId) : Option NodeId :=
  (ws.node? id).bind Node.parent

/-- The node that an edit adds. -/
def Edit.node? : Edit → Option Node
  | .add node => some node
  | .addTop node => some node
  | _ => none

/-- The nodes that edits add, in the order of their numbers. -/
def added (edits : List Edit) : List Node :=
  edits.filterMap Edit.node?

/-- Each back link goes against a forward link, or the node that has it was added with
it. -/
structure Backed (ws : Workspace) (nodes : List Node) : Prop where
  size : ws.size = nodes.length
  prev : ∀ id before, ws.prev? id = some before →
    ws.next? before = some id ∨ (nodes[id]?).bind Node.prev = some before
  parent : ∀ id owner, ws.parent? id = some owner →
    (∃ name, ws.slot? owner name = some id) ∨ (nodes[id]?).bind Node.parent = some owner

/-- An edit adds a node, or deals with nodes that are there. -/
def Edit.Fits (ws : Workspace) : Edit → Prop
  | .add _ => True
  | .addTop _ => True
  | .placeOnTop id => id < ws.size
  | .attach owner _ child => owner < ws.size ∧ child < ws.size
  | .link prev next => prev < ws.size ∧ next < ws.size

section Observers

variable {α : Type} {ws ws' : Workspace} {owner child before after : NodeId} {slot : String}

/-- A new node changes nothing about the ones that are there. -/
theorem node?_add_of_lt {id : NodeId} (hid : id < ws.size) (node : Node) :
    (ws.add node).node? id = ws.node? id := by
  rw [node?_add, if_neg (Nat.ne_of_lt hid)]

theorem next?_add_of_some {id follower : NodeId} (h : ws.next? id = some follower)
    (node : Node) : (ws.add node).next? id = some follower := by
  rw [next?, node?_add_of_lt (lt_size_of_next? h), ← next?, h]

theorem slot?_add_of_some {id inner : NodeId} {name : String} (h : ws.slot? id name = some inner)
    (node : Node) : (ws.add node).slot? id name = some inner := by
  rw [slot?, node?_add_of_lt (lt_size_of_slot? h), ← slot?, h]

theorem bind_node?_add (ws : Workspace) (node : Node) (id : NodeId) (f : Node → Option α) :
    ((ws.add node).node? id).bind f = if id = ws.size then f node else (ws.node? id).bind f := by
  rw [node?_add]
  split <;> rfl

theorem attach_eq_ok_iff :
    ws.attach owner slot child = .ok ws' ↔ ws.slot? owner slot = none ∧
      ws' = (ws.update owner fun node => { node with slots := node.slots.insert slot child }).update
        child fun node => { node with parent := some owner } := by
  rw [attach]
  cases ws.slot? owner slot <;> simp [eq_comm]

theorem link_eq_ok_iff :
    ws.link before after = .ok ws' ↔ ws.next? before = none ∧
      ws' = (ws.update before fun node => { node with next := some after }).update
        after fun node => { node with prev := some before } := by
  rw [link]
  cases ws.next? before <;> simp [eq_comm]

theorem bind_update_of_sets (value : Option α) {id : NodeId} (hid : id < ws.size) (id' : NodeId)
    {change : Node → Node} {f : Node → Option α} (hsets : ∀ node, f (change node) = value) :
    ((ws.update id change).node? id').bind f =
      if id = id' then value else (ws.node? id').bind f := by
  rw [node?_update]
  split
  next heq =>
    obtain ⟨node, hnode⟩ : ∃ node, ws.node? id' = some node :=
      ⟨_, Array.getElem?_eq_getElem (heq ▸ hid)⟩
    rw [hnode, Option.map_some, Option.bind_some, hsets]
  next => rfl

theorem size_attach (h : ws.attach owner slot child = .ok ws') : ws'.size = ws.size := by
  obtain ⟨-, rfl⟩ := attach_eq_ok_iff.1 h
  rw [size_update, size_update]

theorem next?_attach (h : ws.attach owner slot child = .ok ws') (id : NodeId) :
    ws'.next? id = ws.next? id := by
  obtain ⟨-, rfl⟩ := attach_eq_ok_iff.1 h
  rw [next?, bind_update_of_keeps, bind_update_of_keeps, next?] <;> exact fun _ => rfl

theorem prev?_attach (h : ws.attach owner slot child = .ok ws') (id : NodeId) :
    ws'.prev? id = ws.prev? id := by
  obtain ⟨-, rfl⟩ := attach_eq_ok_iff.1 h
  rw [prev?, bind_update_of_keeps, bind_update_of_keeps, prev?] <;> exact fun _ => rfl

/-- Attaching overwrites one back link. -/
theorem parent?_attach (h : ws.attach owner slot child = .ok ws') (hchild : child < ws.size)
    (id : NodeId) : ws'.parent? id = if child = id then some owner else ws.parent? id := by
  obtain ⟨-, rfl⟩ := attach_eq_ok_iff.1 h
  rw [parent?, bind_update_of_sets (some owner), bind_update_of_keeps, parent?]
  · exact fun _ => rfl
  · rwa [size_update]
  · exact fun _ => rfl

/-- Attaching sets one slot. -/
theorem slot?_attach (h : ws.attach owner slot child = .ok ws') (howner : owner < ws.size)
    (id : NodeId) (name : String) :
    ws'.slot? id name = if owner = id ∧ slot = name then some child else ws.slot? id name := by
  obtain ⟨-, rfl⟩ := attach_eq_ok_iff.1 h
  rw [slot?, bind_update_of_keeps, slot?]
  · by_cases hname : slot = name
    · subst hname
      rw [bind_update_of_sets (some child) howner]
      · simp only [and_true]
      · exact fun node => Table.get?_insert_self ..
    · rw [bind_update_of_keeps, if_neg fun hboth => hname hboth.2]
      exact fun node => (Table.get?_insert ..).trans (if_neg (Ne.symm hname))
  · exact fun _ => rfl

theorem size_link (h : ws.link before after = .ok ws') : ws'.size = ws.size := by
  obtain ⟨-, rfl⟩ := link_eq_ok_iff.1 h
  rw [size_update, size_update]

theorem slot?_link (h : ws.link before after = .ok ws') (id : NodeId) (name : String) :
    ws'.slot? id name = ws.slot? id name := by
  obtain ⟨-, rfl⟩ := link_eq_ok_iff.1 h
  rw [slot?, bind_update_of_keeps, bind_update_of_keeps, slot?] <;> exact fun _ => rfl

theorem parent?_link (h : ws.link before after = .ok ws') (id : NodeId) :
    ws'.parent? id = ws.parent? id := by
  obtain ⟨-, rfl⟩ := link_eq_ok_iff.1 h
  rw [parent?, bind_update_of_keeps, bind_update_of_keeps, parent?] <;> exact fun _ => rfl

/-- Linking sets one `next` link. -/
theorem next?_link (h : ws.link before after = .ok ws') (hbefore : before < ws.size)
    (id : NodeId) : ws'.next? id = if before = id then some after else ws.next? id := by
  obtain ⟨-, rfl⟩ := link_eq_ok_iff.1 h
  rw [next?, bind_update_of_keeps, bind_update_of_sets (some after) hbefore, next?] <;>
    exact fun _ => rfl

/-- Linking overwrites one back link. -/
theorem prev?_link (h : ws.link before after = .ok ws') (hafter : after < ws.size)
    (id : NodeId) : ws'.prev? id = if after = id then some before else ws.prev? id := by
  obtain ⟨-, rfl⟩ := link_eq_ok_iff.1 h
  rw [prev?, bind_update_of_sets (some before), bind_update_of_keeps, prev?]
  · exact fun _ => rfl
  · rwa [size_update]
  · exact fun _ => rfl

/-- A slot that is set stays as it is. -/
theorem slot?_attach_of_some (h : ws.attach owner slot child = .ok ws')
    (howner : owner < ws.size) {id inner : NodeId} {name : String}
    (hset : ws.slot? id name = some inner) : ws'.slot? id name = some inner := by
  have hfree := (attach_eq_ok_iff.1 h).1
  rw [slot?_attach h howner, if_neg, hset]
  rintro ⟨rfl, rfl⟩
  rw [hfree] at hset
  cases hset

/-- A `next` link that is set stays as it is. -/
theorem next?_link_of_some (h : ws.link before after = .ok ws') (hbefore : before < ws.size)
    {id follower : NodeId} (hset : ws.next? id = some follower) :
    ws'.next? id = some follower := by
  have hfree := (link_eq_ok_iff.1 h).1
  rw [next?_link h hbefore, if_neg, hset]
  rintro rfl
  rw [hfree] at hset
  cases hset

end Observers

variable {ws ws' : Workspace}

theorem backed_empty : Backed .empty [] where
  size := rfl
  prev _ _ h := by contradiction
  parent _ _ h := by contradiction

variable {nodes : List Node}

/-- Only the nodes matter. -/
theorem Backed.congr (h : ws.Backed nodes) (hnodes : ws'.nodes = ws.nodes) :
    ws'.Backed nodes := by
  obtain ⟨found, top⟩ := ws
  obtain ⟨found', top'⟩ := ws'
  obtain rfl : found' = found := hnodes
  exact ⟨h.size, h.prev, h.parent⟩

theorem nodes_placeOnTop (ws : Workspace) (id : NodeId) : (ws.placeOnTop id).nodes = ws.nodes := by
  rw [placeOnTop]
  split <;> rfl

/-- What is said of an older node is still said of it when another one is added. -/
theorem bind_getElem?_concat {f : Node → Option NodeId} {id target : NodeId}
    (h : (nodes[id]?).bind f = some target) (node : Node) :
    ((nodes ++ [node])[id]?).bind f = some target := by
  obtain ⟨found, hfound, htarget⟩ := Option.bind_eq_some_iff.1 h
  have hid := (List.getElem?_eq_some_iff.1 hfound).1
  rw [List.getElem?_append_left hid, hfound, Option.bind_some, htarget]

theorem Backed.add (h : ws.Backed nodes) (node : Node) :
    (ws.add node).Backed (nodes ++ [node]) := by
  have hnew (f : Node → Option NodeId) :
      ((nodes ++ [node])[ws.size]?).bind f = f node := by
    rw [h.size, List.getElem?_concat_length, Option.bind_some]
  refine ⟨?_, fun id before hbefore => ?_, fun id owner howner => ?_⟩
  · rw [size_add, h.size, List.length_append, List.length_singleton]
  · rw [prev?, bind_node?_add] at hbefore
    split at hbefore
    next hid => exact .inr (hid ▸ (hnew Node.prev).trans hbefore)
    next =>
      exact (h.prev id before hbefore).imp (fun hnext => next?_add_of_some hnext node)
        fun hbrought => bind_getElem?_concat hbrought node
  · rw [parent?, bind_node?_add] at howner
    split at howner
    next hid => exact .inr (hid ▸ (hnew Node.parent).trans howner)
    next =>
      exact (h.parent id owner howner).imp
        (fun ⟨name, hslot⟩ => ⟨name, slot?_add_of_some hslot node⟩)
        fun hbrought => bind_getElem?_concat hbrought node

theorem Backed.attach (h : ws.Backed nodes) {owner child : NodeId} {slot : String}
    (hattach : ws.attach owner slot child = .ok ws') (howner : owner < ws.size)
    (hchild : child < ws.size) : ws'.Backed nodes := by
  refine ⟨(size_attach hattach).trans h.size, fun id before hbefore => ?_,
    fun id holder hholder => ?_⟩
  · rw [prev?_attach hattach] at hbefore
    rw [next?_attach hattach]
    exact h.prev id before hbefore
  · rw [parent?_attach hattach hchild] at hholder
    split at hholder
    next hid =>
      obtain rfl := Option.some.inj hholder
      exact .inl ⟨slot, by rw [slot?_attach hattach howner, if_pos ⟨rfl, rfl⟩, hid]⟩
    next =>
      exact (h.parent id holder hholder).imp_left fun ⟨name, hname⟩ =>
        ⟨name, slot?_attach_of_some hattach howner hname⟩

theorem Backed.link (h : ws.Backed nodes) {before after : NodeId}
    (hlink : ws.link before after = .ok ws') (hbefore : before < ws.size)
    (hafter : after < ws.size) : ws'.Backed nodes := by
  refine ⟨(size_link hlink).trans h.size, fun id prior hprior => ?_, fun id owner howner => ?_⟩
  · rw [prev?_link hlink hafter] at hprior
    split at hprior
    next hid =>
      obtain rfl := Option.some.inj hprior
      exact .inl (by rw [next?_link hlink hbefore, if_pos rfl, hid])
    next =>
      exact (h.prev id prior hprior).imp_left fun hnext => next?_link_of_some hlink hbefore hnext
  · rw [parent?_link hlink] at howner
    exact (h.parent id owner howner).imp_left fun ⟨name, hname⟩ =>
      ⟨name, by rw [slot?_link hlink, hname]⟩

/-- An edit preserves that back links are backed or were brought along. -/
theorem Backed.edited (h : ws.Backed nodes) {edit : Edit} (hfits : edit.Fits ws) :
    (ws.edited edit).Backed (nodes ++ edit.node?.toList) := by
  have hnothing : nodes ++ (none : Option Node).toList = nodes := List.append_nil nodes
  cases edit with
  | add node => exact h.add node
  | addTop node => exact (h.add node).congr rfl
  | placeOnTop id =>
      change (ws.placeOnTop id).Backed (nodes ++ (none : Option Node).toList)
      rw [hnothing]
      exact h.congr (nodes_placeOnTop ws id)
  | attach owner slot child =>
      change (ws.edited (.attach owner slot child)).Backed (nodes ++ (none : Option Node).toList)
      rw [hnothing, Workspace.edited, Edit.apply?]
      cases hattach : ws.attach owner slot child with
      | error e => exact h
      | ok ws' => exact h.attach hattach hfits.1 hfits.2
  | link before after =>
      change (ws.edited (.link before after)).Backed (nodes ++ (none : Option Node).toList)
      rw [hnothing, Workspace.edited, Edit.apply?]
      cases hlink : ws.link before after with
      | error e => exact h
      | ok ws' => exact h.link hlink hfits.1 hfits.2

/-- The back link that the walk backwards takes from a node is not the one that the node was
added with. -/
def SetSince (ws : Workspace) (nodes : List Node) (id : NodeId) : Prop :=
  (∀ owner ∈ ws.parent? id, (nodes[id]?).bind Node.parent ≠ some owner) ∧
    (ws.parent? id = none →
      ∀ before ∈ ws.prev? id, (nodes[id]?).bind Node.prev ≠ some before)

instance (ws : Workspace) (nodes : List Node) (id : NodeId) : Decidable (ws.SetSince nodes id) :=
  inferInstanceAs (Decidable (_ ∧ _))

theorem Backed.exists_slot (h : ws.Backed nodes) {id owner : NodeId}
    (hset : ws.SetSince nodes id) (howner : ws.parent? id = some owner) :
    ∃ name, ws.slot? owner name = some id :=
  (h.parent id owner howner).resolve_right (hset.1 owner howner)

theorem Backed.next?_of_prev? (h : ws.Backed nodes) {id before : NodeId}
    (hset : ws.SetSince nodes id) (hparent : ws.parent? id = none)
    (hbefore : ws.prev? id = some before) : ws.next? before = some id :=
  (h.prev id before hbefore).resolve_right (hset.2 hparent before hbefore)

theorem Forward.links {a b : NodeId} (h : ws.Forward a b) : ws.Links a b := by
  cases h with
  | next hafter => exact .next hafter
  | slot hchild => exact .slot hchild

theorem Forward.lt_size {a b : NodeId} (h : ws.Forward a b) : a < ws.size := by
  cases h with
  | next hafter => exact lt_size_of_next? hafter
  | slot hchild => exact lt_size_of_slot? hchild

/-- Where no node was added with a back link, every link goes along a forward link. -/
theorem Backed.forward_of_links (h : ws.Backed nodes)
    (hloose : ∀ node ∈ nodes, node.parent = none ∧ node.prev = none) {a b : NodeId}
    (hlink : ws.Links a b) : ws.Forward a b := by
  cases hlink with
  | next hafter => exact .next hafter
  | slot hchild => exact .slot hchild
  | prev hnode hbefore =>
      have hprev : ws.prev? b = some a := by
        rw [prev?, hnode, Option.bind_some, hbefore]
      refine .next ((h.prev b a hprev).resolve_right fun hbrought => ?_)
      obtain ⟨node, hadded, hprev⟩ := Option.bind_eq_some_iff.1 hbrought
      rw [(hloose node (List.mem_of_getElem? hadded)).2] at hprev
      cases hprev
  | parent hnode howner =>
      have hparent : ws.parent? b = some a := by
        rw [parent?, hnode, Option.bind_some, howner]
      rcases h.parent b a hparent with ⟨name, hslot⟩ | hbrought
      · exact .slot hslot
      · obtain ⟨node, hadded, hparent⟩ := Option.bind_eq_some_iff.1 hbrought
        rw [(hloose node (List.mem_of_getElem? hadded)).1] at hparent
        cases hparent

/-- A workspace to whose nodes no back link was given when they were added is acyclic exactly
when its slots and `next` links lead to nodes and close no cycle. -/
theorem Backed.acyclic_iff (h : ws.Backed nodes)
    (hloose : ∀ node ∈ nodes, node.parent = none ∧ node.prev = none) :
    ws.Acyclic ↔ (∀ a b, ws.Forward a b → b < ws.size) ∧
      ∀ id, ¬ Relation.TransGen ws.Forward id id := by
  constructor
  · intro hacyclic
    refine ⟨fun a b hforward => (hacyclic.inRange a b hforward.links).2, fun id hcycle => ?_⟩
    exact hacyclic.noCycle id (hcycle.lift (fun id => id) fun _ _ hforward => hforward.links)
  · rintro ⟨hrange, hnone⟩
    refine ⟨fun a b hlink => ?_, fun id hcycle => ?_⟩
    · have hforward := h.forward_of_links hloose hlink
      exact ⟨hforward.lt_size, hrange a b hforward⟩
    · exact hnone id (hcycle.lift (fun id => id) fun _ _ hlink => h.forward_of_links hloose hlink)

end BlockForge.Workspace
