import BlockForge.Proofs.Acyclic
import BlockForge.Proofs.Members
import BlockForge.Proofs.TypeLeaf
import BlockForge.Workspace.Script

/-!
Type trees as lists of leaves.

`TypeWalk` walks the tree in a slot from the left to the right, into groups as deep as
they go, and collects the leaves.  In an acyclic workspace there is always exactly one
walk.  Resolving the slot drops repetitions in every group and once more at the end, and
stops at the first text that is no type name; it gives what the leaves give.
-/

namespace BlockForge

namespace Workspace

/-- A slot holds a node, and neither the node nor its owner is off. -/
structure Occupied (ws : Workspace) (owner : NodeId) (slot : String) (child : NodeId)
    (node : Node) : Prop where
  held : ws.slot? owner slot = some child
  ownerOn : ¬ ws.Off owner
  childOn : ¬ ws.Off child
  found : ws.node? child = some node

/-- The leaves of the tree in a slot.  A slot that is empty, of a node that is off or with
a node that is off has none. -/
inductive TypeWalk (ws : Workspace) : NodeId → String → List TypeLeaf → Prop where
  | nothing {owner : NodeId} {slot : String}
      (h : ∀ child, ws.slot? owner slot = some child → ws.Off owner ∨ ws.Off child) :
      TypeWalk ws owner slot []
  | group {owner child : NodeId} {slot : String} {node : Node}
      (h : ws.Occupied owner slot child node) (hkind : node.kind = .typeGroup)
      (members : Nat → List TypeLeaf)
      (hmembers : ∀ i < node.itemCount, TypeWalk ws child (memberSlot i) (members i)) :
      TypeWalk ws owner slot ((List.range node.itemCount).flatMap members)
  | leaf {owner child : NodeId} {slot : String} {node : Node}
      (h : ws.Occupied owner slot child node) (hkind : node.kind ≠ .typeGroup) :
      TypeWalk ws owner slot [node.typeLeaf]

variable {ws : Workspace} {rank : NodeId → Nat} {owner child : NodeId} {slot : String}
  {node : Node}

theorem Occupied.unique {child' : NodeId} {node' : Node} (h : ws.Occupied owner slot child node)
    (h' : ws.Occupied owner slot child' node') : child = child' ∧ node = node' := by
  obtain rfl := Option.some.inj (h.held.symm.trans h'.held)
  exact ⟨rfl, Option.some.inj (h.found.symm.trans h'.found)⟩

theorem Occupied.not_nothing (h : ws.Occupied owner slot child node) :
    ¬ ∀ child, ws.slot? owner slot = some child → ws.Off owner ∨ ws.Off child :=
  fun hoff => (hoff child h.held).elim h.ownerOn h.childOn

/-- There is no other walk. -/
theorem TypeWalk.unique {leaves leaves' : List TypeLeaf} (h : ws.TypeWalk owner slot leaves)
    (h' : ws.TypeWalk owner slot leaves') : leaves = leaves' := by
  induction h generalizing leaves' with
  | nothing hoff =>
      cases h' with
      | nothing => rfl
      | group hchild => exact absurd hoff hchild.not_nothing
      | leaf hchild => exact absurd hoff hchild.not_nothing
  | group hchild hkind members _ ih =>
      cases h' with
      | nothing hoff => exact absurd hoff hchild.not_nothing
      | group hchild' _ members' hmembers' =>
          obtain ⟨rfl, rfl⟩ := hchild.unique hchild'
          refine List.flatMap_congr fun i hi => ?_
          have hlt := List.mem_range.1 hi
          exact ih i hlt (hmembers' i hlt)
      | leaf hchild' hkind' =>
          obtain ⟨rfl, rfl⟩ := hchild.unique hchild'
          exact absurd hkind hkind'
  | leaf hchild hkind =>
      cases h' with
      | nothing hoff => exact absurd hoff hchild.not_nothing
      | group hchild' hkind' =>
          obtain ⟨rfl, rfl⟩ := hchild.unique hchild'
          exact absurd hkind' hkind
      | leaf hchild' =>
          obtain ⟨rfl, rfl⟩ := hchild.unique hchild'
          rfl

/-- The leaves of the tree in a slot, down to so many groups. -/
def typeLeavesWithin (ws : Workspace) : Nat → NodeId → String → List TypeLeaf
  | 0, _, _ => []
  | depth + 1, owner, slot =>
      match ws.slot? owner slot with
      | none => []
      | some child =>
          if ws.isEnabled owner && ws.isEnabled child then
            match ws.node? child with
            | none => []
            | some node =>
                if node.kind = .typeGroup then
                  (List.range node.itemCount).flatMap fun i =>
                    ws.typeLeavesWithin depth child (memberSlot i)
                else [node.typeLeaf]
          else []

/-- Where nodes have ranks, every slot has a walk: groups lead to nodes of higher rank. -/
theorem Graded.typeWalk (h : ws.Graded rank) {depth : Nat} (hdepth : ws.size ≤ depth + rank owner) :
    ws.TypeWalk owner slot (ws.typeLeavesWithin depth owner slot) := by
  induction depth generalizing owner slot with
  | zero =>
      refine .nothing fun child hslot => ?_
      have hrank := h.rank_lt owner (lt_size_of_slot? hslot)
      omega
  | succ depth ih =>
      rw [typeLeavesWithin]
      cases hslot : ws.slot? owner slot with
      | none =>
          refine .nothing fun child hchild => ?_
          cases hslot.symm.trans hchild
      | some child =>
          obtain ⟨hlt, hrank⟩ := h.slot owner slot child hslot
          obtain ⟨node, hnode⟩ : ∃ node, ws.node? child = some node :=
            ⟨_, Array.getElem?_eq_getElem hlt⟩
          dsimp only
          by_cases hon : (ws.isEnabled owner && ws.isEnabled child) = true
          · obtain ⟨howner, hchild⟩ := (Bool.and_eq_true _ _).mp hon
            have hoccupied : ws.Occupied owner slot child node :=
              ⟨hslot, h.isEnabled_eq_true_iff.1 howner, h.isEnabled_eq_true_iff.1 hchild, hnode⟩
            rw [if_pos hon, hnode]
            dsimp only
            by_cases hkind : node.kind = .typeGroup
            · rw [if_pos hkind]
              exact .group hoccupied hkind _ fun i _ => ih (by omega)
            · rw [if_neg hkind]
              exact .leaf hoccupied hkind
          · rw [if_neg hon]
            refine .nothing fun other hother => ?_
            obtain rfl := Option.some.inj (hslot.symm.trans hother)
            rw [← h.isEnabled_eq_false_iff, ← h.isEnabled_eq_false_iff,
              ← Bool.and_eq_false_iff]
            exact Bool.eq_false_iff.2 hon

theorem Graded.typeNames_of_nothing (h : ws.Graded rank)
    (hoff : ∀ child, ws.slot? owner slot = some child → ws.Off owner ∨ ws.Off child) :
    ws.typeNamesWithin ws.size owner slot = .ok [] := by
  rw [h.typeNamesWithin_size, typeNamesStep]
  cases hslot : ws.slot? owner slot with
  | none => rfl
  | some child =>
      dsimp only
      rw [if_neg]
      rw [Bool.and_eq_true, h.isEnabled_eq_true_iff, h.isEnabled_eq_true_iff]
      exact fun hon => (hoff child hslot).elim hon.1 hon.2

theorem Graded.typeNames_of_occupied (h : ws.Graded rank)
    (hchild : ws.Occupied owner slot child node) :
    ws.typeNamesWithin ws.size owner slot =
      node.namesWith (ws.typeNamesWithin ws.size child) := by
  have howner := h.isEnabled_eq_true_iff.2 hchild.ownerOn
  have hon := h.isEnabled_eq_true_iff.2 hchild.childOn
  rw [h.typeNamesWithin_size, typeNamesStep, hchild.held]
  dsimp only
  rw [howner, hon, Bool.and_true, if_pos rfl, hchild.found]

/-- The names found in a slot are those of the leaves, up to repetitions. -/
theorem TypeWalk.typeNamesWithin_eq {leaves : List TypeLeaf} (hwalk : ws.TypeWalk owner slot leaves)
    (h : ws.Graded rank) :
    (ws.typeNamesWithin ws.size owner slot).map List.eraseDups =
      (leaves.mapM TypeLeaf.encoded?).map List.eraseDups := by
  induction hwalk with
  | nothing hoff =>
      rw [h.typeNames_of_nothing hoff]
      rfl
  | group hchild hkind members _ ih =>
      rw [h.typeNames_of_occupied hchild, Node.namesWith_of_group hkind]
      rw [← map_eraseDups_flatMap fun i hi => ih i (List.mem_range.1 hi)]
      exact map_eraseDups_twice _
  | leaf hchild hkind =>
      rw [h.typeNames_of_occupied hchild, Node.namesWith_of_not_group hkind, Node.typeNames_eq,
        List.mapM_cons, List.mapM_nil]
      cases Node.typeLeaf _ |>.encoded? <;> rfl

/-- The type expression of a slot is that of the leaves. -/
theorem TypeWalk.typeExpression_eq {leaves : List TypeLeaf}
    (hwalk : ws.TypeWalk owner slot leaves) (h : ws.Graded rank) :
    ws.typeExpression owner slot =
      (leaves.mapM TypeLeaf.encoded?).map TypeExpression.ofNames := by
  have hnames := hwalk.typeNamesWithin_eq h
  have hdistinct (names : Except GenerationError (List String)) :
      names.map TypeExpression.ofNames =
        (names.map List.eraseDups).map TypeExpression.ofNames := by
    cases names with
    | error e => rfl
    | ok names =>
        refine congrArg Except.ok ?_
        rw [TypeExpression.ofNames, TypeExpression.ofNames, eraseDups_eraseDups]
  rw [typeExpression, hdistinct, hnames, ← hdistinct]

theorem TypeWalk.failsAt_typeExpression {leaves : List TypeLeaf}
    (hwalk : ws.TypeWalk owner slot leaves) (h : ws.Graded rank) :
    FailsAt (ws.typeExpression owner slot) leaves := by
  rw [hwalk.typeExpression_eq h]
  exact (failsAt_mapM_encoded? leaves).bind_ok TypeExpression.ofNames

/-- Valid leaves are resolved, and read back as the constraint they amount to. -/
theorem TypeWalk.typeExpression_of_allValid {leaves : List TypeLeaf}
    (hwalk : ws.TypeWalk owner slot leaves) (h : ws.Graded rank) (hvalid : AllValid leaves) :
    ∃ t, ws.typeExpression owner slot = .ok t ∧
      t.constraint = .ok (Constraint.ofLeaves leaves) := by
  rw [hwalk.typeExpression_eq h, mapM_encoded?_eq_ok hvalid]
  exact ⟨_, rfl, TypeExpression.constraint_ofNames_encoded leaves⟩

/-- Reading the types back adds no failure. -/
theorem TypeWalk.failsAt_typeConstraint {leaves : List TypeLeaf}
    (hwalk : ws.TypeWalk owner slot leaves) (h : ws.Graded rank) :
    FailsAt (ws.typeConstraint owner slot) leaves := by
  have hresolved := hwalk.failsAt_typeExpression h
  have hread : FailsAt (ws.typeConstraint owner slot) (leaves ++ []) := by
    refine hresolved.bind fun t ht => ?_
    obtain ⟨t', ht', hconstraint⟩ :=
      hwalk.typeExpression_of_allValid h (hresolved.exists_ok_iff.1 ⟨t, ht⟩)
    obtain rfl := Except.ok.inj (ht.symm.trans ht')
    rw [hconstraint]
    exact FailsAt.ok _
  rwa [List.append_nil] at hread

end Workspace

/-- A type tree denotes its leaves.  Resolving a slot of an acyclic workspace fails
exactly at the first leaf that is an invalid name.  Otherwise the result stands for the
constraint that the leaves amount to, whatever characters the names hold. -/
theorem Workspace.Acyclic.typeExpression_denotes {ws : Workspace} (h : ws.Acyclic)
    (owner : NodeId) (slot : String) :
    ∃ leaves, ws.TypeWalk owner slot leaves ∧
      (∀ other, ws.TypeWalk owner slot other → other = leaves) ∧
      ((∃ e, ws.typeExpression owner slot = .error e) ↔
        ∃ text, .typed text ∈ leaves ∧ InvalidTypeName text) ∧
      (∀ e, ws.typeExpression owner slot = .error e →
        ∃ text reason, FirstInvalid leaves text ∧ e = .malformedType text reason) ∧
      ((∀ text, .typed text ∈ leaves → ¬ InvalidTypeName text) →
        ∃ t, ws.typeExpression owner slot = .ok t ∧
          t.constraint = .ok (Constraint.ofLeaves leaves)) := by
  have hwalk : ws.TypeWalk owner slot (ws.typeLeavesWithin ws.size owner slot) :=
    h.graded.typeWalk (Nat.le_add_right _ _)
  have hfails := hwalk.failsAt_typeExpression h.graded
  refine ⟨_, hwalk, fun other hother => hother.unique hwalk, ?_, ?_, ?_⟩
  · rw [exists_congr hfails, exists_firstFailure_iff]
    simp only [AllValid, not_forall, not_not, exists_prop]
  · intro e he
    obtain ⟨text, reason, hfirst, -, rfl⟩ := (hfails e).1 he
    exact ⟨text, reason, hfirst, rfl⟩
  · exact hwalk.typeExpression_of_allValid h.graded

/-- A container with a group of types: a name that reads like any type, a group with a
name full of marks and the first name once more, an empty member and a number. -/
def mixedTypes : Workspace :=
  .ofEdits [
    .addTop { kind := .container, typeName := "factory_base" },
    .add { kind := .typeGroup, typeName := "type_group", itemCount := 4 },
    .add { kind := .typeOther, typeName := "type_other", fields := .ofList [("TYPE", "null")] },
    .add { kind := .typeGroup, typeName := "type_group", itemCount := 2 },
    .add { kind := .typeOther, typeName := "type_other"
           fields := .ofList [("TYPE", "a\\\", [b]")] },
    .add { kind := .typeOther, typeName := "type_other", fields := .ofList [("TYPE", "null")] },
    .add { kind := .typeAtom, typeName := "type_number", valueType := some "Number" },
    .attach 0 "OUTPUTTYPE" 1, .attach 1 "TYPE0" 2, .attach 1 "TYPE1" 3, .attach 3 "TYPE0" 4,
    .attach 3 "TYPE1" 5, .attach 1 "TYPE3" 6]

theorem acyclic_mixedTypes : mixedTypes.Acyclic :=
  (Workspace.graded_of_isAscending (by decide +kernel)).acyclic

/-- The names of `mixedTypes` come out as they are, each once. -/
theorem Workspace.Acyclic.typeExpression_denotes_mixedTypes :
    mixedTypes.Acyclic ∧
      ∃ t, mixedTypes.typeExpression 0 "OUTPUTTYPE" = .ok t ∧
        t.constraint = .ok (some (.many ["null", "a\\\", [b]", "Number"])) := by
  have hleaves : mixedTypes.typeLeavesWithin mixedTypes.size 0 "OUTPUTTYPE" =
      [.typed "null", .typed "a\\\", [b]", .typed "null", .named "Number"] := by
    decide +kernel
  have hwalk : mixedTypes.TypeWalk 0 "OUTPUTTYPE" _ :=
    acyclic_mixedTypes.graded.typeWalk (Nat.le_add_right _ _)
  obtain ⟨leaves, -, hunique, -, -, hdenotes⟩ :=
    Workspace.Acyclic.typeExpression_denotes acyclic_mixedTypes 0 "OUTPUTTYPE"
  rw [← hunique _ hwalk, hleaves] at hdenotes
  refine ⟨acyclic_mixedTypes, hdenotes ?_⟩
  intro text hmem
  simp only [List.mem_cons, TypeLeaf.typed.injEq, List.not_mem_nil, or_false, reduceCtorEq] at hmem
  rcases hmem with rfl | rfl | rfl <;> decide +kernel

end BlockForge
