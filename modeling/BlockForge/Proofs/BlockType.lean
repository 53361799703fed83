import BlockForge.Proofs.Compiling
import BlockForge.Proofs.Walks

/-!
Block types are identifiers in lowercase.

A name is folded into an identifier, or into nothing if it is blank, and an identifier is
folded into itself.  A definition gets its type from the name of its container, and the
name goes nowhere else: with the type for a name it compiles to the same descriptor.
-/

namespace BlockForge

namespace Text

/-- A lowercase letter or the underscore. -/
def startsIdentifier (c : Char) : Bool :=
  ('a' ≤ c && c ≤ 'z') || c == '_'

/-- A lowercase letter, the underscore or a digit. -/
def continuesIdentifier (c : Char) : Bool :=
  startsIdentifier c || ('0' ≤ c && c ≤ '9')

/-- A lowercase letter or an underscore, and then any number of lowercase letters, digits
and underscores. -/
inductive IsIdentifier : List Char → Prop where
  | mk {c : Char} {cs : List Char} (starts : startsIdentifier c = true)
      (continues : ∀ d ∈ cs, continuesIdentifier d = true) : IsIdentifier (c :: cs)

/-- What holds of every character of ASCII holds of one that has a small number. -/
theorem of_toNat_lt {p : Char → Prop} (h : ∀ n < 128, p (Char.ofNat n)) {c : Char}
    (hc : c.toNat < 128) : p c := by
  rw [← Char.ofNat_toNat c]
  exact h c.toNat hc

theorem toNat_lt_of_le {c d : Char} (h : c ≤ d) (hd : d.toNat < 128) : c.toNat < 128 :=
  Nat.lt_of_le_of_lt (UInt32.le_iff_toNat_le.1 h) hd

theorem toNat_lt_of_continuesIdentifier {c : Char} (h : continuesIdentifier c = true) :
    c.toNat < 128 := by
  rcases Bool.or_eq_true_iff.1 h with hstart | hdigit
  · rcases Bool.or_eq_true_iff.1 hstart with hletter | hline
    · exact toNat_lt_of_le (of_decide_eq_true (Bool.and_eq_true_iff.1 hletter).2) (by decide)
    · obtain rfl := eq_of_beq hline
      decide
  · exact toNat_lt_of_le (of_decide_eq_true (Bool.and_eq_true_iff.1 hdigit).2) (by decide)

theorem toNat_lt_of_isWord {c : Char} (h : isWord c = true) : c.toNat < 128 := by
  rcases Bool.or_eq_true_iff.1 h with halphanum | hline
  · rcases Bool.or_eq_true_iff.1 halphanum with hletter | hdigit
    · rcases Bool.or_eq_true_iff.1 hletter with hupper | hlower
      · have hle : c ≤ 'Z' := (of_decide_eq_true hupper).2
        exact toNat_lt_of_le hle (by decide)
      · have hle : c ≤ 'z' := of_decide_eq_true (Bool.and_eq_true_iff.1 hlower).2
        exact toNat_lt_of_le hle (by decide)
    · have hle : c ≤ '9' := of_decide_eq_true (Bool.and_eq_true_iff.1 hdigit).2
      exact toNat_lt_of_le hle (by decide)
  · obtain rfl := eq_of_beq hline
    decide

theorem continuesIdentifier_toLower {c : Char} (h : isWord c = true) :
    continuesIdentifier c.toLower = true := by
  have hascii : ∀ n < 128, isWord (Char.ofNat n) = true →
      continuesIdentifier (Char.ofNat n).toLower = true := by
    decide +kernel
  exact of_toNat_lt (p := fun c => isWord c = true → continuesIdentifier c.toLower = true) hascii
    (toNat_lt_of_isWord h) h

/-- A character of an identifier is no blank and stands for itself. -/
theorem foldChar_of_continuesIdentifier {c : Char} (h : continuesIdentifier c = true) :
    foldChar c = [c] ∧ isBlank c = false := by
  have hascii : ∀ n < 128, continuesIdentifier (Char.ofNat n) = true →
      foldChar (Char.ofNat n) = [Char.ofNat n] ∧ isBlank (Char.ofNat n) = false := by
    decide +kernel
  exact of_toNat_lt
    (p := fun c => continuesIdentifier c = true → foldChar c = [c] ∧ isBlank c = false) hascii
    (toNat_lt_of_continuesIdentifier h) h

/-- A digit can only go on with an identifier. -/
theorem startsIdentifier_iff {c : Char} (h : continuesIdentifier c = true) :
    startsIdentifier c = true ↔ c.isDigit = false := by
  have hascii : ∀ n < 128, continuesIdentifier (Char.ofNat n) = true →
      (startsIdentifier (Char.ofNat n) = true ↔ (Char.ofNat n).isDigit = false) := by
    decide +kernel
  exact of_toNat_lt
    (p := fun c => continuesIdentifier c = true → (startsIdentifier c = true ↔ c.isDigit = false))
    hascii (toNat_lt_of_continuesIdentifier h) h

/-- Folding leaves nothing but characters of identifiers. -/
theorem continuesIdentifier_of_mem_fold {cs : List Char} {d : Char} (h : d ∈ fold cs) :
    continuesIdentifier d = true := by
  obtain ⟨c, _, hd⟩ := List.mem_flatMap.1 h
  unfold foldChar at hd
  split at hd
  next hword =>
    obtain rfl := List.mem_singleton.1 hd
    exact continuesIdentifier_toLower hword
  next =>
    have hplain : d = 'k' ∨ d = 'i' ∨ d = '_' := by
      split at hd
      next => exact .inl (List.mem_singleton.1 hd)
      next => grind
    rcases hplain with rfl | rfl | rfl <;> decide

theorem fold_eq_nil_iff {cs : List Char} : fold cs = [] ↔ cs = [] := by
  rw [fold, List.flatMap_eq_nil_iff]
  constructor
  · intro h
    exact List.eq_nil_iff_forall_not_mem.2 fun c hc => foldChar_ne_nil c (h c hc)
  · rintro rfl
    exact fun c hc => absurd hc List.not_mem_nil

theorem fold_eq_self {cs : List Char} (h : ∀ c ∈ cs, continuesIdentifier c = true) :
    fold cs = cs := by
  induction cs with
  | nil => rfl
  | cons c cs ih =>
      obtain ⟨hc, hcs⟩ := List.forall_mem_cons.1 h
      rw [fold, List.flatMap_cons, (foldChar_of_continuesIdentifier hc).1, ← fold, ih hcs]
      rfl

theorem guardDigit_eq_nil_iff {cs : List Char} : guardDigit cs = [] ↔ cs = [] := by
  cases cs with
  | nil => exact iff_of_true rfl rfl
  | cons c cs =>
      refine iff_of_false ?_ (List.cons_ne_nil c cs)
      rw [guardDigit]
      split <;> exact List.cons_ne_nil _ _

/-- With an underscore before a leading digit, characters of identifiers form one. -/
theorem isIdentifier_guardDigit {cs : List Char} (hne : cs ≠ [])
    (h : ∀ c ∈ cs, continuesIdentifier c = true) : IsIdentifier (guardDigit cs) := by
  cases cs with
  | nil => exact absurd rfl hne
  | cons c cs =>
      obtain ⟨hc, hcs⟩ := List.forall_mem_cons.1 h
      rw [guardDigit]
      split
      next => exact .mk (by decide) h
      next hdigit => exact .mk ((startsIdentifier_iff hc).2 (Bool.eq_false_iff.2 hdigit)) hcs

theorem IsIdentifier.all_continue {cs : List Char} (h : IsIdentifier cs) :
    ∀ c ∈ cs, continuesIdentifier c = true := by
  cases h with
  | mk hstart hrest => exact List.forall_mem_cons.2 ⟨Bool.or_eq_true_iff.2 (.inl hstart), hrest⟩

theorem IsIdentifier.guardDigit_eq {cs : List Char} (h : IsIdentifier cs) :
    guardDigit cs = cs := by
  have hall := h.all_continue
  cases h with
  | mk hstart hrest =>
      have hdigit := (startsIdentifier_iff (hall _ List.mem_cons_self)).1 hstart
      rw [guardDigit, if_neg (Bool.eq_false_iff.1 hdigit)]

theorem trim_eq_self_of_continues {cs : List Char}
    (h : ∀ c ∈ cs, continuesIdentifier c = true) : trim cs = cs := by
  have hvisible {c : Char} (hc : c ∈ cs) : isBlank c = false :=
    (foldChar_of_continuesIdentifier (h c hc)).2
  exact trim_eq_self_iff.2 ⟨fun c hc => hvisible (List.mem_of_head? hc),
    fun c hc => hvisible (List.mem_of_getLast? hc)⟩

/-- An identifier stands for itself. -/
theorem identifier_eq_self {name : String} (h : IsIdentifier name.toList) :
    identifier name = name := by
  rw [identifier, trim_eq_self_of_continues h.all_continue, fold_eq_self h.all_continue,
    h.guardDigit_eq, String.ofList_toList]

theorem identifier_eq_empty_iff {name : String} :
    identifier name = "" ↔ ∀ c ∈ name.toList, isBlank c = true := by
  rw [← trim_eq_nil_iff, ← fold_eq_nil_iff, ← guardDigit_eq_nil_iff, identifier,
    String.ofList_eq_empty_iff]

theorem isIdentifier_identifier {name : String} (h : identifier name ≠ "") :
    IsIdentifier (identifier name).toList := by
  rw [identifier, String.toList_ofList]
  refine isIdentifier_guardDigit ?_ fun c hc => continuesIdentifier_of_mem_fold hc
  intro hnil
  apply h
  rw [identifier, hnil]
  rfl

theorem identifier_identifier (name : String) : identifier (identifier name) = identifier name := by
  by_cases hempty : identifier name = ""
  · rw [hempty]
    rfl
  · exact identifier_eq_self (isIdentifier_identifier hempty)

end Text

/-- A node with another name. -/
def Node.named (node : Node) (name : String) : Node :=
  { node with fields := node.fields.insert "NAME" name }

namespace Node

variable (node : Node) (name : String)

theorem field?_named (key : String) :
    (node.named name).field? key = if key = "NAME" then some name else node.field? key :=
  Table.get?_insert node.fields "NAME" key name

theorem field?_named_of_ne {key : String} (h : key ≠ "NAME") :
    (node.named name).field? key = node.field? key := by
  rw [field?_named, if_neg h]

theorem text_named_of_ne {key : String} (h : key ≠ "NAME") :
    (node.named name).text key = node.text key := by
  rw [text, text, field?_named_of_ne node name h]

theorem shownKey_ne_name (i : Nat) : shownKey i ≠ "NAME" := by
  intro h
  have hlist := congrArg String.toList h
  rw [shownKey, String.toList_append] at hlist
  exact absurd (List.cons.inj hlist).1 (by decide)

theorem codeKey_ne_name (i : Nat) : codeKey i ≠ "NAME" := by
  intro h
  have hlist := congrArg String.toList h
  rw [codeKey, String.toList_append] at hlist
  exact absurd (List.cons.inj hlist).1 (by decide)

/-- The name is no part of what a field block shows. -/
theorem token?_named : (node.named name).token? = node.token? := by
  have htext {key : String} (h : key ≠ "NAME") :
      (node.named name).text key = node.text key := text_named_of_ne node name h
  have hfield {key : String} (h : key ≠ "NAME") :
      (node.named name).field? key = node.field? key := field?_named_of_ne node name h
  have hnumber {key : String} (h : key ≠ "NAME") :
      (node.named name).number key = node.number key := by
    rw [number, number, htext h]
  have hoptions : (node.named name).options = node.options := by
    rw [options, options]
    refine List.map_congr_left fun i _ => ?_
    rw [htext (shownKey_ne_name i), htext (codeKey_ne_name i)]
  have hkind : (node.named name).kind = node.kind := rfl
  simp only [token?, bound?, step?, hkind, hoptions, hnumber, htext, hfield, ne_eq,
    String.reduceEq, not_false_eq_true]

/-- The name is no part of the types that a node stands for. -/
theorem namesWith_named (members : String → Except GenerationError (List String)) :
    (node.named name).namesWith members = node.namesWith members := by
  have htext : (node.named name).text "TYPE" = node.text "TYPE" :=
    text_named_of_ne node name (by decide)
  have hnames : (node.named name).typeNames = node.typeNames := by
    rw [typeNames, typeNames, htext]
    rfl
  rw [namesWith, namesWith, hnames]
  rfl

theorem inputName_named (kind : InputKind) :
    Workspace.inputName (node.named name) kind = Workspace.inputName node kind := by
  cases kind with
  | dummy => rfl
  | value => exact congrArg some (text_named_of_ne node name (by decide))
  | statement => exact congrArg some (text_named_of_ne node name (by decide))

end Node

namespace Workspace

variable (ws : Workspace) (root : NodeId) (name : String)

/-- The workspace with another name in one of its nodes. -/
def named (ws : Workspace) (root : NodeId) (name : String) : Workspace :=
  ws.update root fun node => node.named name

theorem node?_named (id : NodeId) : (ws.named root name).node? id =
    (ws.node? id).map fun node => if root = id then node.named name else node := by
  rw [named, node?_update]
  split
  · rfl
  · rw [Option.map_id']

theorem slot?_named (id : NodeId) (slot : String) :
    (ws.named root name).slot? id slot = ws.slot? id slot :=
  bind_update_of_keeps ws root id fun _ => rfl

theorem field?_named_of_ne (id : NodeId) {key : String} (h : key ≠ "NAME") :
    (ws.named root name).field? id key = ws.field? id key :=
  bind_update_of_keeps ws root id fun node => node.field?_named_of_ne name h

theorem isEnabled_named (id : NodeId) :
    (ws.named root name).isEnabled id = ws.isEnabled id :=
  isEnabled_update_of_keeps ws root id (fun _ => rfl) (fun _ => rfl) fun _ => rfl

theorem chain_named (head : Option NodeId) :
    (ws.named root name).chain head = ws.chain head :=
  chain_update_of_keeps ws root head fun _ => rfl

theorem size_named : (ws.named root name).size = ws.size :=
  size_update ws root _

theorem typeNamesWithin_named (depth : Nat) (owner : NodeId) (slot : String) :
    (ws.named root name).typeNamesWithin depth owner slot =
      ws.typeNamesWithin depth owner slot := by
  induction depth generalizing owner slot with
  | zero => rfl
  | succ depth ih =>
      have hmembers (child : NodeId) : (ws.named root name).typeNamesWithin depth child =
          ws.typeNamesWithin depth child := funext (ih child)
      rw [typeNamesWithin_succ, typeNamesWithin_succ, typeNamesStep, typeNamesStep, slot?_named]
      rcases ws.slot? owner slot with _ | child
      · rfl
      · dsimp only
        rw [isEnabled_named, isEnabled_named, node?_named, hmembers]
        rcases ws.node? child with _ | node
        · rfl
        · simp only [Option.map_some]
          by_cases hroot : root = child
          · rw [if_pos hroot, node.namesWith_named name]
          · rw [if_neg hroot]

theorem typeConstraint_named (owner : NodeId) (slot : String) :
    (ws.named root name).typeConstraint owner slot = ws.typeConstraint owner slot := by
  rw [typeConstraint, typeConstraint, typeExpression, typeExpression, size_named,
    typeNamesWithin_named]

theorem fieldTokens_named (head : Option NodeId) :
    (ws.named root name).fieldTokens head = ws.fieldTokens head := by
  have hon : (ws.named root name).isEnabled = ws.isEnabled :=
    funext (ws.isEnabled_named root name)
  rw [fieldTokens, fieldTokens, chain_named, hon]
  refine List.filterMap_congr fun id _ => ?_
  exact bind_update_of_keeps (f := Node.token?) ws root id fun node => node.token?_named name

/-- The node of an input block may be the one with the other name. -/
theorem inputs_named (owner : NodeId) : (ws.named root name).inputs owner =
    (ws.inputs owner).map fun input =>
      (input.1, if root = input.1 then input.2.1.named name else input.2.1, input.2.2) := by
  have hon : (ws.named root name).isEnabled = ws.isEnabled :=
    funext (ws.isEnabled_named root name)
  rw [inputs, inputs, chain_named, slot?_named, hon, List.map_filterMap]
  refine List.filterMap_congr fun id _ => ?_
  rw [node?_named]
  rcases ws.node? id with _ | node
  · rfl
  · have hkind : (if root = id then node.named name else node).kind = node.kind := by
      split <;> rfl
    simp only [Option.map_some, Option.bind_some, hkind, Option.map_map]
    rfl

theorem row_named (id : NodeId) (node : Node) (kind : InputKind) :
    (ws.named root name).row (id, if root = id then node.named name else node, kind) =
      ws.row (id, node, kind) := by
  have hname : inputName (if root = id then node.named name else node) kind =
      inputName node kind := by
    split
    · exact node.inputName_named name kind
    · rfl
  have halign : (if root = id then node.named name else node).field? "ALIGN" =
      node.field? "ALIGN" := by
    split
    · exact node.field?_named_of_ne name (by decide)
    · rfl
  simp only [row, typeConstraint_named, fieldTokens_named, slot?_named, hname, halign]

theorem rows_named (owner : NodeId) : (ws.named root name).rows owner = ws.rows owner := by
  rw [rows, rows, inputs_named, List.mapM_map]
  refine congrArg (fun f => (ws.inputs owner).mapM f) ?_
  funext ⟨id, node, kind⟩
  exact ws.row_named root name id node kind

theorem connections_named (owner : NodeId) :
    (ws.named root name).connections owner = ws.connections owner := by
  rw [connections, connections, field?_named_of_ne ws root name owner (by decide)]
  simp only [typeConstraint_named]

theorem inputsInline?_named (owner : NodeId) :
    (ws.named root name).inputsInline? owner = ws.inputsInline? owner := by
  rw [inputsInline?, inputsInline?, field?_named_of_ne ws root name owner (by decide)]

theorem hue?_named (owner : NodeId) : (ws.named root name).hue? owner = ws.hue? owner := by
  rw [hue?, hue?, slot?_named]
  rcases ws.slot? owner "COLOUR" with _ | colour
  · rfl
  · have hhue : (ws.named root name).field? colour "HUE" = ws.field? colour "HUE" :=
      field?_named_of_ne ws root name colour (by decide)
    simp only [isEnabled_named, hhue]

theorem root?_named : (ws.named root name).root? = ws.root? := by
  have hcontainer (id : NodeId) :
      (((ws.named root name).node? id).any fun node => node.kind == .container) =
        (ws.node? id).any fun node => node.kind == .container := by
    rw [node?_named]
    rcases ws.node? id with _ | node
    · rfl
    · simp only [Option.map_some, Option.any_some]
      split <;> rfl
  rw [root?, root?, funext hcontainer]
  rfl

end Workspace

namespace Compiler

variable {c : Compiler} {ws : Workspace} {root : NodeId} {d : Descriptor}

theorem compile_eq_ok_iff :
    c.compile ws = .ok d ↔ ∃ root, ws.root? = some root ∧ c.assemble ws root = .ok d := by
  rw [compile]
  constructor
  · intro h
    split at h
    next => cases h
    next =>
      rcases hroot : ws.root? with _ | root
      · rw [hroot] at h
        cases h
      · rw [hroot] at h
        exact ⟨root, rfl, h⟩
  · rintro ⟨root, hroot, h⟩
    have hcontainer := List.find?_some hroot
    obtain ⟨node, hnode, _⟩ := (Option.any_eq_true _ _).1 hcontainer
    rw [if_neg (Nat.ne_zero_of_lt (Workspace.lt_size_of_node? hnode)), hroot]
    exact h

/-- The type of a descriptor is what the name of its container is folded into. -/
theorem blockType_of_assemble (h : c.assemble ws root = .ok d) :
    d.blockType = Text.identifier ((ws.field? root "NAME").getD "") := by
  obtain ⟨rows, layout, _, _, rfl⟩ := assemble_eq_ok_iff.1 h
  exact Descriptor.blockType_withConnections _ _

/-- Of a descriptor, the name of the container decides about the type alone. -/
theorem compile_named (hroot : ws.root? = some root) (h : c.assemble ws root = .ok d)
    (name : String) : c.compile (ws.named root name) =
      .ok { d with blockType := Text.identifier name } := by
  have hcontainer := List.find?_some hroot
  obtain ⟨node, hnode, _⟩ := (Option.any_eq_true _ _).1 hcontainer
  have hname : (ws.named root name).field? root "NAME" = some name := by
    rw [Workspace.field?, Workspace.node?_named, hnode, Option.map_some, Option.bind_some,
      if_pos rfl, Node.field?_named, if_pos rfl]
  obtain ⟨rows, layout, hrows, hlayout, rfl⟩ := assemble_eq_ok_iff.1 h
  refine compile_eq_ok_iff.2 ⟨root, ?_, assemble_eq_ok_iff.2 ⟨rows, layout, ?_, ?_, ?_⟩⟩
  · rw [Workspace.root?_named, hroot]
  · rw [Workspace.rows_named, hrows]
  · rw [Workspace.connections_named, hlayout]
  · rw [describe, hname, Workspace.inputsInline?_named, Workspace.hue?_named]
    cases layout <;> rfl

/-- A name is folded into nothing if it is blank and into an identifier in lowercase
otherwise, and folding once is enough.  So a definition that compiles declares such an
identifier unless its name is blank; with what it declares for its name it compiles to the
same descriptor, and any other definition of that name has the same type. -/
theorem blockType_canonical :
    (∀ name, (Text.identifier name = "" ↔ ∀ c ∈ name.toList, Text.isBlank c = true) ∧
      (Text.identifier name ≠ "" → Text.IsIdentifier (Text.identifier name).toList) ∧
      Text.identifier (Text.identifier name) = Text.identifier name) ∧
    ∀ (c : Compiler) (ws : Workspace) (d : Descriptor), c.compile ws = .ok d →
      (∃ root, ws.root? = some root ∧
        (d.blockType = "" ↔
          ∀ c ∈ ((ws.field? root "NAME").getD "").toList, Text.isBlank c = true) ∧
        (d.blockType ≠ "" → Text.IsIdentifier d.blockType.toList) ∧
        c.compile (ws.named root d.blockType) = .ok d) ∧
      ∀ (c' : Compiler) (ws' : Workspace) (root' : NodeId) (d' : Descriptor),
        ws'.root? = some root' → ws'.field? root' "NAME" = some d.blockType →
          c'.compile ws' = .ok d' → d'.blockType = d.blockType := by
  refine ⟨fun name => ⟨Text.identifier_eq_empty_iff, Text.isIdentifier_identifier,
    Text.identifier_identifier name⟩, fun c ws d h => ?_⟩
  obtain ⟨root, hroot, hassemble⟩ := compile_eq_ok_iff.1 h
  have htype := blockType_of_assemble hassemble
  have hagain : Text.identifier d.blockType = d.blockType := by
    rw [htype, Text.identifier_identifier]
  refine ⟨⟨root, hroot, ?_, ?_, ?_⟩, ?_⟩
  · rw [htype]
    exact Text.identifier_eq_empty_iff
  · rw [htype]
    exact Text.isIdentifier_identifier
  · rw [compile_named hroot hassemble, hagain]
  · intro c' ws' root' d' hroot' hname hcompile
    obtain ⟨other, hother, hassemble'⟩ := compile_eq_ok_iff.1 hcompile
    obtain rfl := Option.some.inj (hroot'.symm.trans hother)
    rw [blockType_of_assemble hassemble', hname, Option.getD_some, hagain]

end Compiler

end BlockForge
