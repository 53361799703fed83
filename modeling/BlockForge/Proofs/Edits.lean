import BlockForge.Proofs.Built

/-!
What a workspace keeps through edits, and what its back links are worth.

Slots and `next` links that are set stay, whatever edits follow, while a back link may be
overwritten by a later edit.  A walk backwards that finds the node around another one can
nevertheless be walked forwards again, as long as it takes no back link that a node was
added with: the node lies in a chain in one of the slots of the node that was found
(`surrounding` of `KeepsLinks`).  So whether a node is enabled is not up to the nodes from
which it cannot be reached.  A copy of a linked node is another matter (`surrounding?_copy`).
-/

namespace BlockForge.Workspace

/-- The edits fit the workspaces that they meet, from the given one on. -/
def AllFit : Workspace → List Edit → Prop
  | _, [] => True
  | ws, edit :: rest => edit.Fits ws ∧ AllFit (ws.edited edit) rest

instance (ws : Workspace) : ∀ edit : Edit, Decidable (edit.Fits ws)
  | .add _ => isTrue trivial
  | .addTop _ => isTrue trivial
  | .placeOnTop id => inferInstanceAs (Decidable (id < ws.size))
  | .attach owner _ child => inferInstanceAs (Decidable (owner < ws.size ∧ child < ws.size))
  | .link prev next => inferInstanceAs (Decidable (prev < ws.size ∧ next < ws.size))

/-- Whether edits fit can be computed along with them. -/
def decideAllFit : ∀ (ws : Workspace) (edits : List Edit), Decidable (AllFit ws edits)
  | _, [] => isTrue trivial
  | ws, edit :: rest =>
      have := decideAllFit (ws.edited edit) rest
      inferInstanceAs (Decidable (edit.Fits ws ∧ AllFit (ws.edited edit) rest))

instance (ws : Workspace) (edits : List Edit) : Decidable (AllFit ws edits) :=
  decideAllFit ws edits

/-- The workspace with a node switched off or on. -/
def switch (ws : Workspace) (id : NodeId) (disabled : Bool) : Workspace :=
  ws.update id fun node => { node with disabled := disabled }

/-- A walk backwards from one node passes another one.  It goes on behind a node that is
plugged into none. -/
inductive Passes (ws : Workspace) : NodeId → NodeId → Prop where
  | itself {id : NodeId} : Passes ws id id
  | prev {id before other : NodeId} (hparent : ws.parent? id = none)
      (hprev : ws.prev? id = some before) (h : Passes ws before other) : Passes ws id other

/-- The walk backwards leads from one node to another one. -/
def Back (ws : Workspace) (id other : NodeId) : Prop :=
  ws.parent? id = some other ∨ ws.parent? id = none ∧ ws.prev? id = some other

/-- What holds of the workspace that edits lead to.  Edits that are refused, as they are
for a place that is taken, change nothing; slots and `next` links that were set at any time
are still set as they were; no node lies on the surface twice; and what the walks backwards
find can be reached forwards, unless they take a back link that a node was added with. -/
structure KeepsLinks (edits : List Edit) : Prop where
  refused : ∀ before edit after e, edits = before ++ edit :: after →
    edit.apply? (ofEdits before) = .error e →
      (∃ id slot, e = .slotOccupied id slot) ∧ ofEdits (before ++ [edit]) = ofEdits before
  slot : ∀ before after, edits = before ++ after → ∀ id name child,
    (ofEdits before).slot? id name = some child → (ofEdits edits).slot? id name = some child
  next : ∀ before after, edits = before ++ after → ∀ id follower,
    (ofEdits before).next? id = some follower → (ofEdits edits).next? id = some follower
  top_nodup : (ofEdits edits).top.Nodup
  /-- The node that the walk backwards finds has a slot in whose chain the walk began. -/
  surrounding : ∀ id owner, (ofEdits edits).surrounding? id = some owner →
    (∀ other, (ofEdits edits).Passes id other → (ofEdits edits).SetSince (added edits) other) →
    ∃ name, id ∈ (ofEdits edits).chain ((ofEdits edits).slot? owner name)
  /-- Only nodes from which a node can be reached decide whether it is enabled. -/
  enabled : ∀ id other disabled,
    (∀ before, Relation.ReflTransGen (ofEdits edits).Back id before →
      (ofEdits edits).SetSince (added edits) before) →
    ¬ Relation.ReflTransGen (ofEdits edits).Forward other id →
    ((ofEdits edits).switch other disabled).isEnabled id = (ofEdits edits).isEnabled id

section Step

variable {ws : Workspace} {edit : Edit}

theorem edited_of_error {e : ConversionError} (h : edit.apply? ws = .error e) :
    ws.edited edit = ws := by
  rw [edited, h]

/-- The only reason to refuse an edit is that the link it sets is set. -/
theorem exists_slotOccupied_of_error {e : ConversionError} (h : edit.apply? ws = .error e) :
    ∃ id slot, e = .slotOccupied id slot := by
  cases edit with
  | attach owner slot child =>
      change ws.attach owner slot child = .error e at h
      rw [attach] at h
      split at h
      · exact ⟨owner, slot, (Except.error.inj h).symm⟩
      · cases h
  | link before after =>
      change ws.link before after = .error e at h
      rw [link] at h
      split at h
      · exact ⟨before, "next", (Except.error.inj h).symm⟩
      · cases h
  | _ => cases h

/-- The slots and `next` links that are set in one workspace are set so in another one. -/
structure Grows (ws ws' : Workspace) : Prop where
  slot : ∀ id name child, ws.slot? id name = some child → ws'.slot? id name = some child
  next : ∀ id follower, ws.next? id = some follower → ws'.next? id = some follower

theorem Grows.refl (ws : Workspace) : ws.Grows ws :=
  ⟨fun _ _ _ hset => hset, fun _ _ hset => hset⟩

theorem Grows.trans {ws ws' ws'' : Workspace} (h : ws.Grows ws') (h' : ws'.Grows ws'') :
    ws.Grows ws'' where
  slot id name child hset := h'.slot id name child (h.slot id name child hset)
  next id follower hset := h'.next id follower (h.next id follower hset)

/-- Only the nodes matter. -/
theorem Grows.of_nodes_eq {ws ws' : Workspace} (hnodes : ws'.nodes = ws.nodes) :
    ws.Grows ws' := by
  obtain ⟨nodes, top⟩ := ws
  obtain ⟨nodes', top'⟩ := ws'
  obtain rfl : nodes' = nodes := hnodes
  exact ⟨fun _ _ _ hset => hset, fun _ _ hset => hset⟩

theorem grows_add (node : Node) : ws.Grows (ws.add node) where
  slot _ _ _ hset := slot?_add_of_some hset node
  next _ _ hset := next?_add_of_some hset node

/-- An edit leaves the links forwards that are set as they are. -/
theorem grows_edited (hfits : edit.Fits ws) : ws.Grows (ws.edited edit) := by
  cases edit with
  | add node => exact grows_add node
  | addTop node => exact (grows_add node).trans (.of_nodes_eq rfl)
  | placeOnTop id => exact .of_nodes_eq (nodes_placeOnTop ws id)
  | attach owner slot child =>
      rw [edited, Edit.apply?]
      rcases hattach : ws.attach owner slot child with e | ws'
      · exact .refl ws
      · constructor
        · exact fun _ _ _ hset => slot?_attach_of_some hattach hfits.1 hset
        · exact fun id _ hset => (next?_attach hattach id).trans hset
  | link before after =>
      rw [edited, Edit.apply?]
      rcases hlink : ws.link before after with e | ws'
      · exact .refl ws
      · constructor
        · exact fun id name _ hset => (slot?_link hlink id name).trans hset
        · exact fun _ _ hset => next?_link_of_some hlink hfits.1 hset

/-- The surface lists nodes of the workspace, each once. -/
structure TopSound (ws : Workspace) : Prop where
  inRange : ∀ id ∈ ws.top, id < ws.size
  nodup : ws.top.Nodup

theorem TopSound.of_top_eq {ws' : Workspace} (h : ws.TopSound) (htop : ws'.top = ws.top)
    (hsize : ws.size ≤ ws'.size) : ws'.TopSound where
  inRange id hid := Nat.lt_of_lt_of_le (h.inRange id (htop ▸ hid)) hsize
  nodup := htop.symm ▸ h.nodup

theorem TopSound.concat {ws' : Workspace} {id : NodeId} (h : ws.TopSound)
    (htop : ws'.top = ws.top ++ [id]) (hsize : ws.size ≤ ws'.size) (hid : id < ws'.size)
    (hfresh : id ∉ ws.top) : ws'.TopSound := by
  constructor
  · intro other hother
    rw [htop] at hother
    rcases List.mem_append.1 hother with hother | hother
    · exact Nat.lt_of_lt_of_le (h.inRange other hother) hsize
    · obtain rfl := List.mem_singleton.1 hother
      exact hid
  · rw [htop]
    apply List.Nodup.append h.nodup (List.nodup_singleton _)
    exact List.disjoint_singleton.2 hfresh

theorem TopSound.edited (h : ws.TopSound) (hfits : edit.Fits ws) : (ws.edited edit).TopSound := by
  have hsize (node : Node) : (ws.add node).size = ws.size + 1 := ws.size_add node
  cases edit with
  | add node => exact h.of_top_eq rfl (Nat.le.intro (hsize node).symm)
  | addTop node =>
      have hfresh : ws.size ∉ ws.top := fun hmem => Nat.lt_irrefl _ (h.inRange _ hmem)
      exact h.concat rfl (Nat.le.intro (hsize node).symm) (Nat.lt_of_succ_le (hsize node).ge) hfresh
  | placeOnTop id =>
      change (ws.placeOnTop id).TopSound
      rw [placeOnTop]
      split
      next => exact h
      next hfresh => exact h.concat rfl (Nat.le_refl _) hfits hfresh
  | attach owner slot child =>
      rw [Workspace.edited, Edit.apply?]
      rcases hattach : ws.attach owner slot child with e | ws'
      · exact h
      · have htop : ws'.top = ws.top := by rw [(attach_eq_ok_iff.1 hattach).2]; rfl
        exact h.of_top_eq htop (size_attach hattach).ge
  | link before after =>
      rw [Workspace.edited, Edit.apply?]
      rcases hlink : ws.link before after with e | ws'
      · exact h
      · have htop : ws'.top = ws.top := by rw [(link_eq_ok_iff.1 hlink).2]; rfl
        exact h.of_top_eq htop (size_link hlink).ge

end Step

section Walks

variable {ws : Workspace} {nodes : List Node} {rank : NodeId → Nat} {id owner other : NodeId}

theorem parent?_of_node? {node : Node} (hnode : ws.node? id = some node) :
    ws.parent? id = node.parent := by
  rw [parent?, hnode, Option.bind_some]

theorem prev?_of_node? {node : Node} (hnode : ws.node? id = some node) :
    ws.prev? id = node.prev := by
  rw [prev?, hnode, Option.bind_some]

/-- The node around another one leads to it. -/
theorem Backed.reaches_of_surrounds (h : ws.Backed nodes) (hsurrounds : ws.Surrounds owner id)
    (hset : ∀ other, ws.Passes id other → ws.SetSince nodes other) :
    Relation.ReflTransGen ws.Forward owner id := by
  induction hsurrounds with
  | parent hnode howner =>
      have hparent := (parent?_of_node? hnode).trans howner
      obtain ⟨name, hslot⟩ := h.exists_slot (hset _ .itself) hparent
      exact .single (.slot hslot)
  | prev hnode hnone hprev _ ih =>
      have hparent := (parent?_of_node? hnode).trans hnone
      have hbefore := (prev?_of_node? hnode).trans hprev
      have hnext := h.next?_of_prev? (hset _ .itself) hparent hbefore
      have hrest := ih fun other hpasses => hset other (.prev hparent hbefore hpasses)
      exact hrest.tail (.next hnext)

/-- A node lies in a chain in a slot of the node around it.  The walk backwards may have
crossed links that were overwritten since, but each one it took still has its counterpart. -/
theorem Backed.exists_chain_of_surrounds (h : ws.Backed nodes) (hgraded : ws.Graded rank)
    (hsurrounds : ws.Surrounds owner id)
    (hset : ∀ other, ws.Passes id other → ws.SetSince nodes other) :
    ∃ name, id ∈ ws.chain (ws.slot? owner name) := by
  induction hsurrounds with
  | parent hnode howner =>
      have hparent := (parent?_of_node? hnode).trans howner
      obtain ⟨name, hslot⟩ := h.exists_slot (hset _ .itself) hparent
      refine ⟨name, ?_⟩
      rw [hslot, hgraded.chain_some (lt_size_of_node? hnode)]
      exact List.mem_cons_self
  | prev hnode hnone hprev _ ih =>
      have hparent := (parent?_of_node? hnode).trans hnone
      have hbefore := (prev?_of_node? hnode).trans hprev
      have hnext := h.next?_of_prev? (hset _ .itself) hparent hbefore
      obtain ⟨name, hmem⟩ := ih fun other hpasses => hset other (.prev hparent hbefore hpasses)
      refine ⟨name, ?_⟩
      rcases hslot : ws.slot? owner name with _ | head
      · rw [hslot, chain_none] at hmem
        cases hmem
      · rw [hslot] at hmem
        exact hgraded.mem_chain_next (hgraded.slot owner name head hslot).1 hmem hnext

theorem Passes.back (h : ws.Passes id other) : Relation.ReflTransGen ws.Back id other := by
  induction h with
  | itself => exact .refl
  | prev hparent hprev _ ih => exact .head (.inr ⟨hparent, hprev⟩) ih

theorem Surrounds.back (h : ws.Surrounds owner id) : Relation.ReflTransGen ws.Back id owner := by
  induction h with
  | parent hnode howner => exact .single (.inl ((parent?_of_node? hnode).trans howner))
  | prev hnode hnone hprev _ ih =>
      have hparent := (parent?_of_node? hnode).trans hnone
      exact .head (.inr ⟨hparent, (prev?_of_node? hnode).trans hprev⟩) ih

theorem surrounding?_switch (ws : Workspace) (other : NodeId) (disabled : Bool) (id : NodeId) :
    (ws.switch other disabled).surrounding? id = ws.surrounding? id :=
  surrounding?_update_of_keeps ws other id (fun _ => rfl) fun _ => rfl

theorem isDisabled_switch (hne : other ≠ id) (disabled : Bool) :
    (ws.switch other disabled).isDisabled id = ws.isDisabled id := by
  rw [isDisabled, isDisabled, switch, node?_update, if_neg hne]

/-- Switching a node from which another one cannot be reached makes no difference to that
one. -/
theorem Backed.isEnabled_switch (h : ws.Backed nodes)
    (hset : ∀ before, Relation.ReflTransGen ws.Back id before → ws.SetSince nodes before)
    (hother : ¬ Relation.ReflTransGen ws.Forward other id) (disabled : Bool) :
    (ws.switch other disabled).isEnabled id = ws.isEnabled id := by
  have hsteps : ∀ steps id,
      (∀ before, Relation.ReflTransGen ws.Back id before → ws.SetSince nodes before) →
      ¬ Relation.ReflTransGen ws.Forward other id →
        (ws.switch other disabled).enabledWithin steps id = ws.enabledWithin steps id := by
    intro steps
    induction steps with
    | zero => exact fun _ _ _ => rfl
    | succ steps ih =>
        intro id hset hother
        have hne : other ≠ id := fun heq => hother (heq ▸ .refl)
        rw [enabledWithin, enabledWithin, isDisabled_switch hne, surrounding?_switch]
        rcases howner : ws.surrounding? id with _ | owner
        · rfl
        · -- What leads to the node around this one would lead to this one.
          have hsurrounds := surrounds_of_surroundingWithin howner
          have hpath := h.reaches_of_surrounds hsurrounds fun other hpasses =>
            hset other hpasses.back
          have hunreached : ¬ Relation.ReflTransGen ws.Forward other owner :=
            fun hreached => hother (hreached.trans hpath)
          have hbehind := fun before hback => hset before (hsurrounds.back.trans hback)
          simp only [ih owner hbehind hunreached]
  rw [isEnabled, isEnabled, hsteps _ id hset hother, switch, size_update]

end Walks

section Run

variable {ws : Workspace} {edits before after : List Edit}

theorem ofEdits_append (before after : List Edit) :
    ofEdits (before ++ after) = after.foldl edited (ofEdits before) := by
  rw [ofEdits, List.foldl_append, ← ofEdits]

theorem allFit_append_iff :
    AllFit ws (before ++ after) ↔ AllFit ws before ∧ AllFit (before.foldl edited ws) after := by
  induction before generalizing ws with
  | nil => simp [AllFit]
  | cons edit before ih => simp [AllFit, ih, and_assoc]

theorem grows_foldl_edited (hfit : AllFit ws edits) : ws.Grows (edits.foldl edited ws) := by
  induction edits generalizing ws with
  | nil => exact .refl ws
  | cons edit rest ih => exact (grows_edited hfit.1).trans (ih hfit.2)

theorem topSound_foldl_edited (h : ws.TopSound) (hfit : AllFit ws edits) :
    (edits.foldl edited ws).TopSound := by
  induction edits generalizing ws with
  | nil => exact h
  | cons edit rest ih => exact ih (h.edited hfit.1) hfit.2

theorem Backed.foldl_edited {nodes : List Node} (h : ws.Backed nodes) (hfit : AllFit ws edits) :
    (edits.foldl Workspace.edited ws).Backed (nodes ++ added edits) := by
  induction edits generalizing ws nodes with
  | nil =>
      rw [added, List.filterMap_nil, List.append_nil]
      exact h
  | cons edit rest ih =>
      have hadded : added (edit :: rest) = edit.node?.toList ++ added rest := by
        rw [added, List.filterMap_cons]
        cases edit.node? <;> rfl
      rw [hadded, ← List.append_assoc]
      exact ih (h.edited hfit.1) hfit.2

/-- Edits with numbers that are there, after which no links close a cycle, keep the links
of the workspace, whether they take effect or not and however often they plug in or link one
and the same node. -/
theorem keepsLinks_of_allFit (hfit : AllFit .empty edits)
    (hacyclic : (ofEdits edits).Acyclic) : KeepsLinks edits := by
  have hbacked : (ofEdits edits).Backed (added edits) := backed_empty.foldl_edited hfit
  have htop : Workspace.empty.TopSound := ⟨fun _ hid => absurd hid List.not_mem_nil, .nil⟩
  constructor
  · intro before edit after e _ hrefused
    rw [ofEdits_append]
    exact ⟨exists_slotOccupied_of_error hrefused, edited_of_error hrefused⟩
  · rintro before after rfl
    rw [ofEdits_append]
    exact (grows_foldl_edited (allFit_append_iff.1 hfit).2).slot
  · rintro before after rfl
    rw [ofEdits_append]
    exact (grows_foldl_edited (allFit_append_iff.1 hfit).2).next
  · exact (topSound_foldl_edited htop hfit).nodup
  · intro id owner howner hset
    have hsurrounds := surrounds_of_surroundingWithin howner
    exact hbacked.exists_chain_of_surrounds hacyclic.graded hsurrounds hset
  · intro id other disabled hset hother
    exact hbacked.isEnabled_switch hset hother disabled

/-- A node that is plugged into two others and one that is linked after two others, with
edits in between that are refused and a node that is put on the surface again.  The last
node is added as a copy with a back link and plugged into another node then. -/
def tangledEdits : List Edit :=
  let text : Node := { kind := .literalText, typeName := "field_static" }
  let row : Node := { kind := .dummyInput, typeName := "input_dummy" }
  [.addTop row, .addTop { row with disabled := true }, .add text, .add text, .add text,
    .attach 0 "FIELDS" 2, .link 2 4, .attach 1 "FIELDS" 2, .attach 0 "FIELDS" 3,
    .attach 1 "MORE" 3, .link 3 4, .link 2 3, .placeOnTop 0,
    .add { text with parent := some 0 }, .attach 1 "COPY" 5]

theorem keepsLinks_of_allFit_tangledEdits :
    AllFit .empty tangledEdits ∧ (ofEdits tangledEdits).Acyclic ∧
      (ofEdits tangledEdits).slot? 0 "FIELDS" = some 2 ∧
      (ofEdits tangledEdits).surrounding? 2 = some 1 ∧
      (ofEdits tangledEdits).surrounding? 5 = some 1 ∧
      (∀ id < 6, (ofEdits tangledEdits).SetSince (added tangledEdits) id) ∧
      KeepsLinks tangledEdits := by
  have hfit : AllFit .empty tangledEdits := by
    decide +kernel
  have hascending : (ofEdits tangledEdits).isAscending = true := by
    decide +kernel
  have hacyclic := (graded_of_isAscending hascending).acyclic
  exact ⟨hfit, hacyclic, by decide +kernel, by decide +kernel, by decide +kernel,
    by decide +kernel, keepsLinks_of_allFit hfit hacyclic⟩

/-- A text in a row. -/
def plainEdits : List Edit :=
  [.addTop { kind := .dummyInput, typeName := "input_dummy" },
    .add { kind := .literalText, typeName := "field_static" }, .attach 0 "FIELDS" 1]

/-- The text in the row, copied with its back link. -/
def copiedNode : Node :=
  { kind := .literalText, typeName := "field_static", parent := some 0 }

/-- The row around the copy of a text has no slot in whose chain the copy lies. -/
theorem surrounding?_copy :
    (ofEdits plainEdits).node? 1 = some copiedNode ∧
      AllFit .empty (plainEdits ++ [.add copiedNode]) ∧
      (ofEdits (plainEdits ++ [.add copiedNode])).Acyclic ∧
      (ofEdits (plainEdits ++ [.add copiedNode])).surrounding? 2 = some 0 ∧
      ∀ name, 2 ∉ (ofEdits (plainEdits ++ [.add copiedNode])).chain
        ((ofEdits (plainEdits ++ [.add copiedNode])).slot? 0 name) := by
  have hascending : (ofEdits (plainEdits ++ [.add copiedNode])).isAscending = true := by
    decide +kernel
  refine ⟨by decide +kernel, by decide +kernel, (graded_of_isAscending hascending).acyclic,
    by decide +kernel, fun name => ?_⟩
  have hslots : ((ofEdits (plainEdits ++ [.add copiedNode])).node? 0).map Node.slots =
      some (Table.empty.insert "FIELDS" 1) := by decide +kernel
  have hchain : (ofEdits (plainEdits ++ [.add copiedNode])).chain (some 1) = [1] := by
    decide +kernel
  obtain ⟨row, hrow, hslots⟩ := Option.map_eq_some_iff.1 hslots
  rw [slot?, hrow, Option.bind_some, hslots, Table.get?_insert, Table.get?_empty]
  split
  next =>
    rw [hchain]
    decide
  next =>
    rw [chain_none]
    exact List.not_mem_nil

end Run

end BlockForge.Workspace
