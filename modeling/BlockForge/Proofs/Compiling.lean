import BlockForge.Proofs.Rendering

/-!
Compiling a workspace: how it fails, and what holds of every schema it gives.

There is nothing to compile when there is no container, and every other failure is
a malformed type.  No input of a compiled schema is checked for any type, and its
colour is a word with a sign.
-/

namespace BlockForge

/-- A failure to read a type, as opposed to nothing to do. -/
def GenerationError.IsMalformedType (e : GenerationError) : Prop :=
  ∃ text reason, e = .malformedType text reason

theorem GenerationError.IsMalformedType.not_noop {e : GenerationError}
    (h : e.IsMalformedType) : e.isNoop = false := by
  obtain ⟨text, reason, rfl⟩ := h
  rfl

theorem Node.isMalformedType_of_typeNames {node : Node} {e : GenerationError}
    (h : node.typeNames = .error e) : e.IsMalformedType := by
  unfold Node.typeNames at h
  split at h
  next =>
    dsimp only at h
    split at h
    next reason _ => exact ⟨_, reason, (Except.error.inj h).symm⟩
    next => cases h
  next => split at h <;> cases h

theorem TypeExpression.isMalformedType_of_constraint {t : TypeExpression}
    {e : GenerationError} (h : t.constraint = .error e) : e.IsMalformedType := by
  unfold TypeExpression.constraint at h
  split at h
  next => cases h
  next text _ =>
    split at h
    next => cases h
    next fault _ => exact ⟨text, _, (Except.error.inj h).symm⟩

namespace Workspace

variable {ws : Workspace} {e : GenerationError}

theorem isMalformedType_of_typeNamesWithin {depth : Nat} {owner : NodeId} {slot : String}
    (h : ws.typeNamesWithin depth owner slot = .error e) : e.IsMalformedType := by
  induction depth generalizing owner slot with
  | zero => cases h
  | succ depth ih =>
      unfold typeNamesWithin at h
      split at h
      next => cases h
      next child _ =>
        split at h
        next =>
          split at h
          next => cases h
          next node _ =>
            split at h
            next =>
              rw [except_bind_eq_error_iff] at h
              rcases h with h | ⟨members, _, h⟩
              · obtain ⟨i, _, hi⟩ := exists_error_of_mapM h
                exact ih hi
              · cases h
            next => exact node.isMalformedType_of_typeNames h
        next => cases h

theorem isMalformedType_of_typeConstraint {owner : NodeId} {slot : String}
    (h : ws.typeConstraint owner slot = .error e) : e.IsMalformedType := by
  rw [typeConstraint, except_bind_eq_error_iff] at h
  rcases h with h | ⟨t, _, h⟩
  · rw [typeExpression] at h
    cases hnames : ws.typeNamesWithin ws.size owner slot with
    | ok names =>
        rw [hnames] at h
        cases h
    | error e' =>
        rw [hnames] at h
        obtain rfl := Except.error.inj h
        exact isMalformedType_of_typeNamesWithin hnames
  · exact t.isMalformedType_of_constraint h

/-- A step that first reads a type fails at the type or later on. -/
theorem isMalformedType_of_bind {α : Type} {owner : NodeId} {slot : String}
    {f : Option Constraint → Except GenerationError α}
    (h : (ws.typeConstraint owner slot >>= f) = .error e)
    (hf : ∀ check, f check = .error e → e.IsMalformedType) : e.IsMalformedType := by
  rw [except_bind_eq_error_iff] at h
  rcases h with h | ⟨check, _, h⟩
  · exact isMalformedType_of_typeConstraint h
  · exact hf check h

theorem isMalformedType_of_rows {root : NodeId} (h : ws.rows root = .error e) :
    e.IsMalformedType := by
  obtain ⟨input, _, hrow⟩ := exists_error_of_mapM h
  exact isMalformedType_of_bind hrow fun _ h => nomatch h

theorem isMalformedType_of_connections {root : NodeId} (h : ws.connections root = .error e) :
    e.IsMalformedType := by
  unfold connections at h
  split at h
  next => exact isMalformedType_of_bind h fun _ h => nomatch h
  next =>
    refine isMalformedType_of_bind h ?_
    intro previous h
    exact isMalformedType_of_bind h fun _ h => nomatch h
  next => exact isMalformedType_of_bind h fun _ h => nomatch h
  next => exact isMalformedType_of_bind h fun _ h => nomatch h
  next => cases h

theorem hue_inRange {root : NodeId} {hue : Int} (h : ws.hue? root = some hue) :
    Word.minSigned ≤ hue ∧ hue ≤ Word.maxSigned := by
  have hlead (text : String) (h : FieldNumber.leadingInt? text = some hue) :
      Word.minSigned ≤ hue ∧ hue ≤ Word.maxSigned := by
    have hmin : Word.minSigned = -0x8000000000000000 := rfl
    have hmax : Word.maxSigned = 0x7fffffffffffffff := rfl
    unfold FieldNumber.leadingInt? at h
    dsimp only at h
    split at h
    next => cases h
    next =>
      split at h
      next hle =>
        have hvalue := Option.some.inj h
        split at hvalue <;> omega
      next => cases h
  unfold hue? at h
  split at h
  next =>
    split at h
    next => exact hlead _ h
    next => cases h
  next => cases h

end Workspace

namespace Compiler

variable {c : Compiler} {ws : Workspace}

theorem isMalformedType_of_assemble {root : NodeId} {e : GenerationError}
    (h : c.assemble ws root = .error e) : e.IsMalformedType := by
  have hassemble : c.assemble ws root = ws.rows root >>= fun rows =>
      ws.connections root >>= fun layout =>
        .ok ((c.describe ws root rows).withConnections layout) := rfl
  rw [hassemble, except_bind_eq_error_iff] at h
  rcases h with h | ⟨rows, _, h⟩
  · exact Workspace.isMalformedType_of_rows h
  · rw [except_bind_eq_error_iff] at h
    rcases h with h | ⟨layout, _, h⟩
    · exact Workspace.isMalformedType_of_connections h
    · cases h

/-- Compiling has nothing to do exactly when there is no node or no container, and
otherwise fails only at a malformed type. -/
theorem isNoop_of_compile {e : GenerationError} (h : c.compile ws = .error e) :
    e.isNoop = true ↔ ws.size = 0 ∨ ws.root? = none := by
  unfold compile at h
  split at h
  next hsize =>
    obtain rfl := Except.error.inj h
    exact iff_of_true rfl (.inl hsize)
  next hsize =>
    split at h
    next hroot =>
      obtain rfl := Except.error.inj h
      exact iff_of_true rfl (.inr hroot)
    next root hroot =>
      rw [(isMalformedType_of_assemble h).not_noop, hroot]
      simp [hsize]

theorem compile_of_noRoot (h : ws.size = 0 ∨ ws.root? = none) :
    ∃ e, c.compile ws = .error e := by
  unfold compile
  split
  next => exact ⟨_, rfl⟩
  next hsize =>
    obtain hsize' | hroot := h
    · exact absurd hsize' hsize
    · rw [hroot]
      exact ⟨_, rfl⟩

theorem exists_assemble_of_compile {d : Descriptor} (h : c.compile ws = .ok d) :
    ∃ root, c.assemble ws root = .ok d := by
  unfold compile at h
  split at h
  next => cases h
  next =>
    split at h
    next => cases h
    next root _ => exact ⟨root, h⟩

end Compiler

/-- Every argument of a message is the input of a row or one of its fields. -/
theorem exists_row_of_mem_rowParts {rows : List Row} {arg : Arg}
    (h : arg ∈ (rowParts rows).filterMap MessagePart.arg?) :
    ∃ row ∈ rows, arg = .input row.input ∨
      ∃ field, arg = .field field ∧ FieldToken.field field ∈ row.tokens := by
  obtain ⟨part, hpart, harg⟩ := List.mem_filterMap.1 h
  have hmem : part ∈ rows.flatMap Row.parts := by
    unfold rowParts at hpart
    dsimp only at hpart
    split at hpart
    next => exact List.dropLast_subset _ hpart
    next => exact hpart
  obtain ⟨row, hrow, hpart⟩ := List.mem_flatMap.1 hmem
  refine ⟨row, hrow, ?_⟩
  rw [Row.parts, List.mem_append, List.mem_singleton] at hpart
  rcases hpart with hpart | rfl
  · obtain ⟨token, htoken, rfl⟩ := List.mem_map.1 hpart
    cases token with
    | text escaped => cases harg
    | field field => exact .inr ⟨field, (Option.some.inj harg).symm, htoken⟩
  · exact .inl (Option.some.inj harg).symm

namespace Compiler

variable {c : Compiler} {ws : Workspace} {d : Descriptor}

/-- A type slot that accepts everything leaves its input without a check. -/
theorem check_of_compile (h : c.compile ws = .ok d) {input : InputArg}
    (hinput : Arg.input input ∈ d.args) : input.check ≠ some .any := by
  obtain ⟨root, hroot⟩ := exists_assemble_of_compile h
  obtain ⟨rows, layout, hrows, _, rfl⟩ := assemble_eq_ok_iff.1 hroot
  rw [Descriptor.args_withConnections] at hinput
  obtain ⟨row, hrow, hinput | ⟨field, hfield, _⟩⟩ := exists_row_of_mem_rowParts hinput
  · obtain rfl := Arg.input.inj hinput
    obtain ⟨source, _, hsource⟩ := exists_of_mem_mapM hrows hrow
    rw [Workspace.row, except_bind_eq_ok_iff] at hsource
    obtain ⟨check, _, hsource⟩ := hsource
    obtain rfl := Except.ok.inj hsource
    simp
  · cases hfield

/-- Every field of a schema is the token of a node. -/
theorem exists_node_of_compile (h : c.compile ws = .ok d) {field : FieldArg}
    (hfield : Arg.field field ∈ d.args) : ∃ node : Node, node.token? = some (.field field) := by
  obtain ⟨root, hroot⟩ := exists_assemble_of_compile h
  obtain ⟨rows, layout, hrows, _, rfl⟩ := assemble_eq_ok_iff.1 hroot
  rw [Descriptor.args_withConnections] at hfield
  obtain ⟨row, hrow, hinput | ⟨_, heq, htoken⟩⟩ := exists_row_of_mem_rowParts hfield
  · cases hinput
  · obtain rfl := Arg.field.inj heq
    obtain ⟨source, _, hsource⟩ := exists_of_mem_mapM hrows hrow
    rw [Workspace.row, except_bind_eq_ok_iff] at hsource
    obtain ⟨check, _, hsource⟩ := hsource
    obtain rfl := Except.ok.inj hsource
    obtain ⟨id, _, hid⟩ := List.mem_filterMap.1 htoken
    obtain ⟨node, _, hnode⟩ := Option.bind_eq_some_iff.1 hid
    exact ⟨node, hnode⟩

theorem colour_of_compile (h : c.compile ws = .ok d) {hue : Int}
    (hhue : d.colour = some hue) : Word.minSigned ≤ hue ∧ hue ≤ Word.maxSigned := by
  obtain ⟨root, hroot⟩ := exists_assemble_of_compile h
  obtain ⟨rows, layout, _, _, rfl⟩ := assemble_eq_ok_iff.1 hroot
  rw [Descriptor.colour_withConnections] at hhue
  exact ws.hue_inRange hhue

end Compiler

end BlockForge
