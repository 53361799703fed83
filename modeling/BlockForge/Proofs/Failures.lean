import BlockForge.Proofs.Compiling
import BlockForge.Proofs.TypeTree

/-!
Compiling fails exactly when it has to.

`Consulted` lists the places of types that the definition of a container depends on: the
type of each of its inputs in the order of their chain, and then those of its connections.
Every step of compiling fails at the leaves that it walks over and nowhere else, so a
whole definition fails at the first invalid name in these places.
-/

namespace BlockForge

/-- The slots with the types of the connections that a field selects. -/
def connectionSlots : Option String → List String
  | some "LEFT" => ["OUTPUTTYPE"]
  | some "BOTH" => ["TOPTYPE", "BOTTOMTYPE"]
  | some "TOP" => ["TOPTYPE"]
  | some "BOTTOM" => ["BOTTOMTYPE"]
  | _ => []

/-- A node is one of the three kinds of inputs. -/
def Node.IsInput (node : Node) : Prop :=
  node.kind = .dummyInput ∨ node.kind = .valueInput ∨ node.kind = .statementInput

theorem Node.isInput_iff {node : Node} : node.IsInput ↔ ∃ kind, node.kind.input? = some kind := by
  rw [Node.IsInput]
  cases node.kind <;> simp [Kind.input?]

namespace Workspace

/-- The type slots of the inputs in a chain.  Nodes that are off and nodes of other kinds
are passed over. -/
inductive InputPlaces (ws : Workspace) : Option NodeId → List (NodeId × String) → Prop where
  | done : InputPlaces ws none []
  | input {id : NodeId} {node : Node} {places : List (NodeId × String)}
      (hnode : ws.node? id = some node) (hon : ¬ ws.Off id) (hkind : node.IsInput)
      (hrest : InputPlaces ws node.next places) :
      InputPlaces ws (some id) ((id, "TYPE") :: places)
  | skip {id : NodeId} {node : Node} {places : List (NodeId × String)}
      (hnode : ws.node? id = some node) (hskip : ws.Off id ∨ ¬ node.IsInput)
      (hrest : InputPlaces ws node.next places) : InputPlaces ws (some id) places

/-- The places with the types that the definition of a container depends on. -/
def Consulted (ws : Workspace) (root : NodeId) (places : List (NodeId × String)) : Prop :=
  ∃ inputs, ws.InputPlaces (ws.slot? root "INPUTS") inputs ∧
    places = inputs ++ (connectionSlots (ws.field? root "CONNECTIONS")).map fun slot => (root, slot)

/-- The leaves of the trees in some slots. -/
inductive TypeWalks (ws : Workspace) : List (NodeId × String) → List TypeLeaf → Prop where
  | nil : TypeWalks ws [] []
  | cons {owner : NodeId} {slot : String} {places : List (NodeId × String)}
      {leaves rest : List TypeLeaf} (hwalk : ws.TypeWalk owner slot leaves)
      (hrest : TypeWalks ws places rest) :
      TypeWalks ws ((owner, slot) :: places) (leaves ++ rest)

variable {ws : Workspace} {rank : NodeId → Nat} {root id : NodeId}
  {places : List (NodeId × String)} {leaves : List TypeLeaf}

theorem TypeWalks.append_inv {before after : List (NodeId × String)}
    (h : ws.TypeWalks (before ++ after) leaves) :
    ∃ first second, leaves = first ++ second ∧ ws.TypeWalks before first ∧
      ws.TypeWalks after second := by
  induction before generalizing leaves with
  | nil => exact ⟨[], leaves, rfl, .nil, h⟩
  | cons place before ih =>
      cases h with
      | cons hwalk hrest =>
          obtain ⟨first, second, rfl, hbefore, hafter⟩ := ih hrest
          exact ⟨_, second, (List.append_assoc _ _ _).symm, .cons hwalk hbefore, hafter⟩

theorem TypeWalks.of_singleton {owner : NodeId} {slot : String}
    (h : ws.TypeWalks [(owner, slot)] leaves) : ws.TypeWalk owner slot leaves := by
  cases h with
  | cons hwalk hrest =>
      cases hrest
      rwa [List.append_nil]

/-- The leaves of the trees in some slots, computed. -/
def leavesAt (ws : Workspace) (places : List (NodeId × String)) : List TypeLeaf :=
  places.flatMap fun place => ws.typeLeavesWithin ws.size place.1 place.2

theorem Graded.typeWalks (h : ws.Graded rank) (places : List (NodeId × String)) :
    ws.TypeWalks places (ws.leavesAt places) := by
  induction places with
  | nil => exact .nil
  | cons place places ih => exact .cons (h.typeWalk (Nat.le_add_right _ _)) ih

theorem InputPlaces.unique {head : Option NodeId} {places' : List (NodeId × String)}
    (h : ws.InputPlaces head places) (h' : ws.InputPlaces head places') : places = places' := by
  induction h generalizing places' with
  | done =>
      cases h'
      rfl
  | input hnode hon hkind _ ih =>
      cases h' with
      | input hnode' _ _ hrest =>
          obtain rfl := Option.some.inj (hnode.symm.trans hnode')
          rw [ih hrest]
      | skip hnode' hskip _ =>
          obtain rfl := Option.some.inj (hnode.symm.trans hnode')
          exact (hskip.elim hon (· hkind)).elim
  | skip hnode hskip _ ih =>
      cases h' with
      | input hnode' hon hkind _ =>
          obtain rfl := Option.some.inj (hnode.symm.trans hnode')
          exact (hskip.elim hon (· hkind)).elim
      | skip hnode' _ hrest =>
          obtain rfl := Option.some.inj (hnode.symm.trans hnode')
          exact ih hrest

/-- The inputs of a chain that are compiled. -/
def inputsFrom (ws : Workspace) (head : Option NodeId) : List (NodeId × Node × InputKind) :=
  ((ws.chain head).filter ws.isEnabled).filterMap fun id =>
    (ws.node? id).bind fun node => node.kind.input?.map fun kind => (id, node, kind)

theorem Graded.inputsFrom_some (h : ws.Graded rank) {node : Node}
    (hnode : ws.node? id = some node) :
    ws.inputsFrom (some id) =
      (if ws.isEnabled id then
          (node.kind.input?.map fun kind => (id, node, kind)).toList
        else []) ++ ws.inputsFrom node.next := by
  have hnext : ws.next? id = node.next := by rw [next?, hnode, Option.bind_some]
  rw [inputsFrom, h.chain_some (lt_size_of_node? hnode), hnext, List.filter_cons]
  by_cases hon : ws.isEnabled id = true
  · rw [if_pos hon, if_pos hon, List.filterMap_cons, hnode, Option.bind_some]
    cases node.kind.input? <;> rfl
  · rw [if_neg hon, if_neg hon, List.nil_append]
    rfl

/-- The type slots are those of the inputs that are compiled. -/
theorem Graded.inputPlaces (h : ws.Graded rank) {head : Option NodeId}
    (hhead : ∀ id ∈ head, id < ws.size) :
    ws.InputPlaces head ((ws.inputsFrom head).map fun input => (input.1, "TYPE")) := by
  have hnone : ws.InputPlaces none ((ws.inputsFrom none).map fun input => (input.1, "TYPE")) := by
    rw [inputsFrom, chain_none]
    exact .done
  cases head with
  | none => exact hnone
  | some id =>
      have hid := hhead id rfl
      clear hhead
      induction hleft : ws.size - rank id using Nat.strongRecOn generalizing id with
      | ind left ih =>
          subst hleft
          obtain ⟨node, hnode⟩ : ∃ node, ws.node? id = some node :=
            ⟨_, Array.getElem?_eq_getElem hid⟩
          have hrest : ws.InputPlaces node.next
              ((ws.inputsFrom node.next).map fun input => (input.1, "TYPE")) := by
            cases hnext : node.next with
            | none => exact hnone
            | some after =>
                have hafter : ws.next? id = some after := by
                  rw [next?, hnode, Option.bind_some, hnext]
                obtain ⟨hlt, hrank⟩ := h.next id after hafter
                have hid' := h.rank_lt id hid
                exact ih _ (by omega) after hlt rfl
          rw [h.inputsFrom_some hnode]
          by_cases hon : ws.isEnabled id = true
          · rw [if_pos hon]
            cases hkind : node.kind.input? with
            | none =>
                have hother : ¬ node.IsInput := by
                  rw [Node.isInput_iff, hkind]
                  simp
                exact .skip hnode (.inr hother) hrest
            | some kind =>
                have hinput : node.IsInput := Node.isInput_iff.2 ⟨kind, hkind⟩
                exact .input hnode (h.isEnabled_eq_true_iff.1 hon) hinput hrest
          · rw [if_neg hon]
            have hoff := h.isEnabled_eq_false_iff.1 (Bool.eq_false_iff.2 hon)
            exact .skip hnode (.inl hoff) hrest

/-- The places that the definition of a container depends on, computed. -/
def consultedPlaces (ws : Workspace) (root : NodeId) : List (NodeId × String) :=
  ((ws.inputsFrom (ws.slot? root "INPUTS")).map fun input => (input.1, "TYPE")) ++
    (connectionSlots (ws.field? root "CONNECTIONS")).map fun slot => (root, slot)

theorem Graded.consulted (h : ws.Graded rank) (root : NodeId) :
    ws.Consulted root (ws.consultedPlaces root) := by
  have hhead : ∀ id ∈ ws.slot? root "INPUTS", id < ws.size :=
    fun id hid => (h.slot root "INPUTS" id hid).1
  exact ⟨_, h.inputPlaces hhead, rfl⟩

theorem Consulted.unique {places' : List (NodeId × String)} (h : ws.Consulted root places)
    (h' : ws.Consulted root places') : places = places' := by
  obtain ⟨inputs, hinputs, rfl⟩ := h
  obtain ⟨inputs', hinputs', rfl⟩ := h'
  rw [hinputs.unique hinputs']

/-- The row of an input fails at the type of the input. -/
theorem TypeWalk.failsAt_row {input : NodeId × Node × InputKind}
    (hwalk : ws.TypeWalk input.1 "TYPE" leaves) (h : ws.Graded rank) :
    FailsAt (ws.row input) leaves :=
  (hwalk.failsAt_typeConstraint h).bind_ok _

theorem TypeWalks.failsAt_rows {inputs : List (NodeId × Node × InputKind)}
    (hwalks : ws.TypeWalks (inputs.map fun input => (input.1, "TYPE")) leaves)
    (h : ws.Graded rank) : FailsAt (inputs.mapM ws.row) leaves := by
  induction inputs generalizing leaves with
  | nil =>
      cases hwalks
      exact FailsAt.ok []
  | cons input inputs ih =>
      cases hwalks with
      | cons hwalk hrest =>
          rw [List.mapM_cons]
          exact (hwalk.failsAt_row h).bind fun row _ => (ih hrest).bind_ok (row :: ·)

theorem connectionSlots_eq (field : Option String) :
    connectionSlots field =
      match ConnectionShape.ofField field with
      | .output => ["OUTPUTTYPE"]
      | .both => ["TOPTYPE", "BOTTOMTYPE"]
      | .top => ["TOPTYPE"]
      | .bottom => ["BOTTOMTYPE"]
      | .none => [] := by
  unfold connectionSlots ConnectionShape.ofField
  split
  · rfl
  · rfl
  · rfl
  · rfl
  · split <;> simp_all

/-- The connections fail at their types. -/
theorem TypeWalks.failsAt_connections
    (hwalks : ws.TypeWalks ((connectionSlots (ws.field? root "CONNECTIONS")).map
      fun slot => (root, slot)) leaves)
    (h : ws.Graded rank) : FailsAt (ws.connections root) leaves := by
  rw [connectionSlots_eq] at hwalks
  rw [connections]
  generalize ConnectionShape.ofField (ws.field? root "CONNECTIONS") = shape at hwalks ⊢
  cases shape with
  | output => exact (hwalks.of_singleton.failsAt_typeConstraint h).bind_ok Connections.output
  | both =>
      cases hwalks with
      | cons hprevious hnext =>
          exact (hprevious.failsAt_typeConstraint h).bind fun previous _ =>
            (hnext.of_singleton.failsAt_typeConstraint h).bind_ok (Connections.statement previous)
  | top =>
      exact (hwalks.of_singleton.failsAt_typeConstraint h).bind_ok fun previous =>
        Connections.statement previous none
  | bottom =>
      exact (hwalks.of_singleton.failsAt_typeConstraint h).bind_ok fun next =>
        Connections.statement none next
  | none =>
      cases hwalks
      exact FailsAt.ok _

/-- A node is a container. -/
def IsContainer (ws : Workspace) (id : NodeId) : Prop :=
  ∃ node, ws.node? id = some node ∧ node.kind = .container

/-- A node is the first container on the surface. -/
def FirstContainer (ws : Workspace) (root : NodeId) : Prop :=
  ∃ before after, ws.top = before ++ root :: after ∧ ws.IsContainer root ∧
    ∀ id ∈ before, ¬ ws.IsContainer id

theorem isContainer_iff :
    ws.IsContainer id ↔ ((ws.node? id).any fun node => node.kind == .container) = true := by
  rw [IsContainer, Option.any_eq_true]
  simp only [beq_iff_eq]

theorem root?_eq_some_iff : ws.root? = some root ↔ ws.FirstContainer root := by
  simp only [root?, List.find?_eq_some_iff_append, FirstContainer, isContainer_iff,
    Bool.not_eq_eq_eq_not, Bool.not_true, Bool.not_eq_true]
  constructor
  · rintro ⟨hroot, before, after, htop, hbefore⟩
    exact ⟨before, after, htop, hroot, hbefore⟩
  · rintro ⟨before, after, htop, hroot, hbefore⟩
    exact ⟨hroot, before, after, htop, hbefore⟩

theorem root?_eq_none_iff : ws.root? = none ↔ ∀ id ∈ ws.top, ¬ ws.IsContainer id := by
  simp only [root?, List.find?_eq_none, isContainer_iff]

end Workspace

namespace Compiler

variable {c : Compiler} {ws : Workspace} {rank : NodeId → Nat} {root : NodeId}

/-- A definition fails at the first invalid name in the places that it depends on. -/
theorem failsAt_assemble {places : List (NodeId × String)} {leaves : List TypeLeaf}
    (h : ws.Graded rank) (hplaces : ws.Consulted root places)
    (hwalks : ws.TypeWalks places leaves) : FailsAt (c.assemble ws root) leaves := by
  rw [hplaces.unique (h.consulted root)] at hwalks
  obtain ⟨first, second, rfl, hfirst, hsecond⟩ := hwalks.append_inv
  have hrows : FailsAt (ws.rows root) first := hfirst.failsAt_rows h
  exact hrows.bind fun rows _ => (hsecond.failsAt_connections h).bind_ok fun layout =>
    (c.describe ws root rows).withConnections layout

theorem compile_of_firstContainer (c : Compiler) (h : ws.FirstContainer root) :
    c.compile ws = c.assemble ws root := by
  obtain ⟨_, _, _, ⟨node, hnode, _⟩, _⟩ := id h
  have hsize : ws.size ≠ 0 := Nat.ne_zero_of_lt (Workspace.lt_size_of_node? hnode)
  rw [compile, if_neg hsize, Workspace.root?_eq_some_iff.2 h]

/-- Compiling fails at the first invalid name of a container, if there is a container. -/
theorem failsAt_compile {places : List (NodeId × String)} {leaves : List TypeLeaf}
    (c : Compiler) (h : ws.Graded rank) (hroot : ws.FirstContainer root)
    (hplaces : ws.Consulted root places) (hwalks : ws.TypeWalks places leaves) :
    FailsAt (c.compile ws) leaves := by
  rw [compile_of_firstContainer c hroot]
  exact failsAt_assemble h hplaces hwalks

/-- Compiling fails for want of nodes, for want of a container, or as the definition of
the first container does. -/
theorem compile_eq_error_iff (c : Compiler) (h : ws.Graded rank) {e : GenerationError} :
    c.compile ws = .error e ↔
      ws.size = 0 ∧ e = .emptyInput ∨
      (ws.size ≠ 0 ∧ ∀ id ∈ ws.top, ¬ ws.IsContainer id) ∧ e = .missingRoot ∨
      ∃ root places leaves, ws.FirstContainer root ∧ ws.Consulted root places ∧
        ws.TypeWalks places leaves ∧ FirstFailure leaves e := by
  constructor
  · intro he
    by_cases hsize : ws.size = 0
    · rw [compile, if_pos hsize] at he
      exact .inl ⟨hsize, (Except.error.inj he).symm⟩
    cases hroot : ws.root? with
    | none =>
        rw [compile, if_neg hsize, hroot] at he
        exact .inr (.inl ⟨⟨hsize, Workspace.root?_eq_none_iff.1 hroot⟩, (Except.error.inj he).symm⟩)
    | some root =>
        have hfirst := Workspace.root?_eq_some_iff.1 hroot
        have hplaces := h.consulted root
        have hwalks := h.typeWalks (ws.consultedPlaces root)
        have hfailure := (failsAt_compile c h hfirst hplaces hwalks e).1 he
        exact .inr (.inr ⟨root, _, _, hfirst, hplaces, hwalks, hfailure⟩)
  · rintro (⟨hsize, rfl⟩ | ⟨⟨hsize, hnone⟩, rfl⟩ |
      ⟨root, places, leaves, hfirst, hplaces, hwalks, hfailure⟩)
    · rw [compile, if_pos hsize]
    · rw [compile, if_neg hsize, Workspace.root?_eq_none_iff.2 hnone]
    · exact (failsAt_compile c h hfirst hplaces hwalks e).2 hfailure

/-- Compiling an acyclic workspace fails for want of nodes, for want of a container, or at
the first invalid name in the places that the first container depends on, and in no other
way. -/
theorem compile_fails_exactly (c : Compiler) (h : ws.Acyclic) :
    (c.compile ws = .error .emptyInput ↔ ws.size = 0) ∧
      (c.compile ws = .error .missingRoot ↔
        ws.size ≠ 0 ∧ ∀ id ∈ ws.top, ¬ ws.IsContainer id) ∧
      (∀ text, (∃ reason, c.compile ws = .error (.malformedType text reason)) ↔
        ∃ root places leaves, ws.FirstContainer root ∧ ws.Consulted root places ∧
          ws.TypeWalks places leaves ∧ FirstInvalid leaves text) ∧
      ∀ e, c.compile ws = .error e → e = .emptyInput ∨ e = .missingRoot ∨
        ∃ text reason, e = .malformedType text reason := by
  have hempty (leaves : List TypeLeaf) : ¬ FirstFailure leaves .emptyInput := by
    rintro ⟨_, _, _, _, heq⟩
    cases heq
  have hmissing (leaves : List TypeLeaf) : ¬ FirstFailure leaves .missingRoot := by
    rintro ⟨_, _, _, _, heq⟩
    cases heq
  refine ⟨?_, ?_, ?_, ?_⟩
  · rw [compile_eq_error_iff c h.graded]
    simp [hempty]
  · rw [compile_eq_error_iff c h.graded]
    simp [hmissing]
  · intro text
    simp only [compile_eq_error_iff c h.graded]
    constructor
    · rintro ⟨reason, ⟨_, heq⟩ | ⟨_, heq⟩ |
        ⟨root, places, leaves, hfirst, hplaces, hwalks, hfailure⟩⟩
      · cases heq
      · cases heq
      · exact ⟨root, places, leaves, hfirst, hplaces, hwalks, hfailure.firstInvalid⟩
    · rintro ⟨root, places, leaves, hfirst, hplaces, hwalks, htext⟩
      obtain ⟨reason, hfailure⟩ := htext.exists_failure
      exact ⟨reason, .inr (.inr ⟨root, places, leaves, hfirst, hplaces, hwalks, hfailure⟩)⟩
  · intro e he
    rcases (compile_eq_error_iff c h.graded).1 he with
      ⟨_, rfl⟩ | ⟨_, rfl⟩ | ⟨_, _, _, _, _, _, text, reason, _, _, rfl⟩
    · exact .inl rfl
    · exact .inr (.inl rfl)
    · exact .inr (.inr ⟨text, reason, rfl⟩)

/-- A container next to a stray block.  The first of its inputs is off, the type of the
second one has a tab in it, and the type of the connection above is blank. -/
def faultyTypes : Workspace :=
  .ofEdits [
    .addTop { kind := .literalText, typeName := "field_static" },
    .addTop { kind := .container, typeName := "factory_base"
              fields := .ofList [("CONNECTIONS", "BOTH")] },
    .add { kind := .dummyInput, typeName := "input_dummy", disabled := true },
    .add { kind := .typeOther, typeName := "type_other", fields := .ofList [("TYPE", " x")] },
    .add { kind := .valueInput, typeName := "input_value" },
    .add { kind := .typeGroup, typeName := "type_group", itemCount := 2 },
    .add { kind := .typeAtom, typeName := "type_number", valueType := some "Number" },
    .add { kind := .typeOther, typeName := "type_other"
           fields := .ofList [("TYPE", "two\twords")] },
    .add { kind := .typeOther, typeName := "type_other" },
    .attach 1 "INPUTS" 2, .attach 2 "TYPE" 3, .link 2 4, .attach 4 "TYPE" 5,
    .attach 5 "TYPE0" 6, .attach 5 "TYPE1" 7, .attach 1 "TOPTYPE" 8]

/-- The first fault of `faultyTypes` is reported. -/
theorem compile_fails_exactly_faultyTypes :
    faultyTypes.Acyclic ∧
      ∃ reason, ({} : Compiler).compile faultyTypes =
        .error (.malformedType "two\twords" reason) := by
  have hgraded : faultyTypes.Graded fun id => id :=
    Workspace.graded_of_isAscending (by decide +kernel)
  have hroot : faultyTypes.FirstContainer 1 :=
    Workspace.root?_eq_some_iff.1 (by decide +kernel)
  have hleaves : faultyTypes.leavesAt (faultyTypes.consultedPlaces 1) =
      [.named "Number", .typed "two\twords", .typed ""] := by
    decide +kernel
  have hfirst : FirstInvalid (faultyTypes.leavesAt (faultyTypes.consultedPlaces 1))
      "two\twords" := by
    rw [hleaves]
    exact ⟨[.named "Number"], [.typed ""], rfl, by decide +kernel, by simp [AllValid]⟩
  obtain ⟨-, -, hmalformed, -⟩ := compile_fails_exactly {} hgraded.acyclic
  exact ⟨hgraded.acyclic, (hmalformed "two\twords").2
    ⟨1, _, _, hroot, hgraded.consulted 1, hgraded.typeWalks _, hfirst⟩⟩

end Compiler

end BlockForge
