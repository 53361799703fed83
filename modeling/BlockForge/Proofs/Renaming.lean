import BlockForge.Definition
import BlockForge.Proofs.Numbering
import Mathlib.Data.List.Induction

/-!
Type mappings rename the blocks of a tree.

A converter with mappings makes of a tree what a converter without any makes of the tree in
which the types that were mapped are written out as the types that they stand for
(`convert_ofCalls`).  Both give the same workspace, or are stopped by the same block; only a
block without an id is then called by the other type, where a field of it is at fault.
-/

namespace BlockForge

namespace Block

mutual

/-- The block with other type names, at every depth. -/
def renamed (rename : String → String) : Block → Block
  | mk data slots next =>
      mk { data with type := rename data.type } (renamedSlots rename slots)
        (renamedNext rename next)

def renamedSlots (rename : String → String) : List (String × Block) → List (String × Block)
  | [] => []
  | (name, block) :: rest => (name, block.renamed rename) :: renamedSlots rename rest

def renamedNext (rename : String → String) : Option Block → Option Block
  | none => none
  | some block => some (block.renamed rename)

end

variable {rename : String → String}

@[simp] theorem data_renamed (block : Block) :
    (block.renamed rename).data = { block.data with type := rename block.data.type } := by
  cases block
  rfl

theorem renamedSlots_eq_map (slots : List (String × Block)) :
    renamedSlots rename slots = slots.map fun e => (e.1, e.2.renamed rename) := by
  induction slots with
  | nil => rfl
  | cons e rest ih => rw [renamedSlots, ih, List.map_cons]

theorem renamedNext_eq_map (next : Option Block) :
    renamedNext rename next = next.map (renamed rename) := by
  cases next <;> rfl

theorem ordered_renamed {block : Block} (h : block.Ordered) : (block.renamed rename).Ordered := by
  induction block using Block.induct with
  | mk data slots next hslots hnext =>
      obtain ⟨hkeys, hbelow, hafter⟩ := h
      rw [renamed, renamedSlots_eq_map]
      refine ⟨?_, ?_, ?_⟩
      · exact List.pairwise_map.2 hkeys
      · apply slotsOrdered_iff.2
        intro e he
        obtain ⟨slot, hslot, rfl⟩ := List.mem_map.1 he
        exact hslots slot hslot (slotsOrdered_iff.1 hbelow slot hslot)
      · rcases next with _ | following
        · trivial
        · exact hnext following rfl hafter

mutual

/-- The blocks of a renamed block are its blocks renamed, in the same order. -/
theorem all_renamed : ∀ block : Block,
    (block.renamed rename).all = block.all.map (renamed rename)
  | mk data slots next => by
      rw [renamed, all, all, allInSlots_renamed slots, allNext_renamed next, List.map_cons,
        List.map_append, renamed]

theorem allInSlots_renamed : ∀ slots : List (String × Block),
    allInSlots (renamedSlots rename slots) = (allInSlots slots).map (renamed rename)
  | [] => rfl
  | (_, block) :: rest => by
      rw [renamedSlots, allInSlots, allInSlots, all_renamed block, allInSlots_renamed rest,
        List.map_append]

theorem allNext_renamed : ∀ next : Option Block,
    allNext (renamedNext rename next) = (allNext next).map (renamed rename)
  | none => rfl
  | some block => all_renamed block

end

theorem slotHeads_renamed (id : NodeId) (slots : List (String × Block)) :
    slotHeads id (renamedSlots rename slots) = slotHeads id slots := by
  induction slots generalizing id with
  | nil => rfl
  | cons e rest ih =>
      simp only [renamedSlots, slotHeads, all_renamed, List.length_map, ih]

/-- What a block has of parts is told by its fields and by the names of its slots. -/
theorem inferred_renamed (block : Block) (kind : Kind) :
    (block.renamed rename).inferred kind = block.inferred kind := by
  obtain ⟨data, slots, next⟩ := block
  have hnames : (renamedSlots rename slots).map Prod.fst = slots.map Prod.fst := by
    rw [renamedSlots_eq_map, List.map_map]
    rfl
  cases kind with
  | typeGroup => exact congrArg memberCount hnames
  | _ => rfl

end Block

/-- The tree with other type names, at every depth. -/
def EditorTree.renamed (tree : EditorTree) (rename : String → String) : EditorTree where
  blocks := tree.blocks.map (Block.renamed rename)
  ordered := by
    intro block h
    obtain ⟨b, hb, rfl⟩ := List.mem_map.1 h
    exact Block.ordered_renamed (tree.ordered b hb)

theorem EditorTree.all_renamed (tree : EditorTree) (rename : String → String) :
    (tree.renamed rename).all = tree.all.map (Block.renamed rename) := by
  rw [all, all, renamed, List.flatMap_map, List.map_flatMap]
  exact List.flatMap_congr fun block _ => Block.all_renamed block

/-- Two conversions come to the same: the same result, or the same block that stops both,
which has the other name in the second one. -/
inductive Alike (rename : String → String) {α : Type} :
    Except ConversionError α → Except ConversionError α → Prop where
  | ok (a : α) : Alike rename (.ok a) (.ok a)
  | type (id type : String) :
      Alike rename (.error (.unknownBlockType id type)) (.error (.unknownBlockType id type))
  | field (block : Block) (name : String) (value : Json) :
      Alike rename (.error (block.compoundFieldError name value))
        (.error ((block.renamed rename).compoundFieldError name value))

namespace Alike

variable {rename : String → String} {α β : Type} {x y : Except ConversionError α}

theorem bind (h : Alike rename x y) {f g : α → Except ConversionError β}
    (hfg : ∀ a, Alike rename (f a) (g a)) : Alike rename (x >>= f) (y >>= g) := by
  rcases h with a | ⟨id, type⟩ | ⟨block, name, value⟩
  · exact hfg a
  · exact .type id type
  · exact .field block name value

theorem map (h : Alike rename x y) (f : α → β) : Alike rename (x.map f) (y.map f) := by
  rcases h with a | ⟨id, type⟩ | ⟨block, name, value⟩
  · exact .ok (f a)
  · exact .type id type
  · exact .field block name value

theorem toOption_eq (h : Alike rename x y) : x.toOption = y.toOption := by
  rcases h with a | ⟨id, type⟩ | ⟨block, name, value⟩ <;> rfl

/-- Steps that come to the same do so one after the other. -/
theorem mapM {γ : Type} {f g : γ → Except ConversionError α} (h : ∀ c, Alike rename (f c) (g c))
    (cs : List γ) : Alike rename (cs.mapM f) (cs.mapM g) := by
  induction cs with
  | nil => exact .ok []
  | cons c cs ih =>
      rw [List.mapM_cons, List.mapM_cons]
      exact (h c).bind fun a => ih.bind fun as => .ok (a :: as)

end Alike

namespace Converter

/-- The converter after some requests for mappings, the first one first. -/
def ofCalls (strict : Bool) (calls : List (String × String)) : Converter :=
  calls.foldl (fun c call => c.withMapping call.1 call.2) { strict := strict }

/-- The type that the last request for a type names, among the requests for types that
have a kind. -/
def builtinFor? (calls : List (String × String)) (type : String) : Option String :=
  ((calls.filter fun call => call.1 = type ∧ (Kind.ofTypeName? call.2).isSome).getLast?).map
    Prod.snd

/-- The type that a type stands for. -/
def builtinFor (calls : List (String × String)) (type : String) : String :=
  (builtinFor? calls type).getD type

theorem strict_withMapping (c : Converter) (custom builtin : String) :
    (c.withMapping custom builtin).strict = c.strict := by
  rw [withMapping]
  split <;> rfl

/-- A request is taken up when the type it names has a kind, and then counts for its own
type only. -/
theorem get?_mapping_withMapping (c : Converter) (custom builtin type : String) :
    (c.withMapping custom builtin).mapping.get? type =
      if custom = type ∧ (Kind.ofTypeName? builtin).isSome then some builtin
      else c.mapping.get? type := by
  rw [withMapping]
  rcases hkind : Kind.ofTypeName? builtin with _ | kind
  · simp
  · simp [Table.get?_insert, eq_comm]

theorem builtinFor?_concat (calls : List (String × String)) (call : String × String)
    (type : String) :
    builtinFor? (calls ++ [call]) type =
      if call.1 = type ∧ (Kind.ofTypeName? call.2).isSome then some call.2
      else builtinFor? calls type := by
  rw [builtinFor?, List.filter_append, List.getLast?_append]
  by_cases hcall : call.1 = type ∧ (Kind.ofTypeName? call.2).isSome
  · simp [hcall]
  · simp [hcall, builtinFor?]

theorem ofCalls_concat (strict : Bool) (calls : List (String × String))
    (call : String × String) :
    ofCalls strict (calls ++ [call]) = (ofCalls strict calls).withMapping call.1 call.2 := by
  rw [ofCalls, List.foldl_append]
  rfl

theorem strict_ofCalls (strict : Bool) (calls : List (String × String)) :
    (ofCalls strict calls).strict = strict := by
  induction calls using List.reverseRecOn with
  | nil => rfl
  | append_singleton calls call ih => rw [ofCalls_concat, strict_withMapping, ih]

/-- The mappings of a converter are what its requests say. -/
theorem get?_mapping_ofCalls (strict : Bool) (calls : List (String × String)) (type : String) :
    (ofCalls strict calls).mapping.get? type = builtinFor? calls type := by
  induction calls using List.reverseRecOn with
  | nil => rfl
  | append_singleton calls call ih =>
      rw [ofCalls_concat, get?_mapping_withMapping, builtinFor?_concat, ih]

example : builtinFor [("own", "input_dummy"), ("own", "input_value"), ("own", "odd")] "own" =
    "input_value" := by decide

theorem isSome_of_builtinFor? {calls : List (String × String)} {type builtin : String}
    (h : builtinFor? calls type = some builtin) : (Kind.ofTypeName? builtin).isSome := by
  obtain ⟨call, hlast, rfl⟩ := Option.map_eq_some_iff.1 h
  have hmem := List.mem_of_getLast? hlast
  simp only [List.mem_filter, decide_eq_true_eq] at hmem
  exact hmem.2.2

section Agreement

variable (strict : Bool) (calls : List (String × String))

theorem typeName_ofCalls (block : Block) :
    (ofCalls strict calls).typeName block = builtinFor calls block.data.type := by
  rw [typeName, get?_mapping_ofCalls, builtinFor]

theorem typeName_renamed (block : Block) :
    ({ strict := strict } : Converter).typeName (block.renamed (builtinFor calls)) =
      (ofCalls strict calls).typeName block := by
  obtain ⟨data, slots, next⟩ := block
  rw [typeName_ofCalls]
  rfl

/-- A type that was mapped stands for one that has a kind. -/
theorem builtinFor_of_unknown {calls : List (String × String)} {type : String}
    (h : Kind.ofTypeName? (builtinFor calls type) = none) : builtinFor calls type = type := by
  rw [builtinFor] at h ⊢
  rcases hbuiltin : builtinFor? calls type with _ | builtin
  · rfl
  · rw [hbuiltin, Option.getD_some] at h
    have hknown := isSome_of_builtinFor? hbuiltin
    rw [h] at hknown
    cases hknown

/-- Only an unknown type is refused, and an unknown type is not a mapped one. -/
theorem alike_kind (block : Block) :
    Alike (builtinFor calls) ((ofCalls strict calls).kind block)
      (({ strict := strict } : Converter).kind (block.renamed (builtinFor calls))) := by
  rw [kind, kind, typeName_renamed, strict_ofCalls, typeName_ofCalls]
  rcases hkind : Kind.ofTypeName? (builtinFor calls block.data.type) with _ | kind
  · rw [Block.data_renamed, builtinFor_of_unknown hkind]
    rcases strict
    · exact .ok Kind.other
    · exact .type _ _
  · exact .ok kind

theorem bare_renamed (block : Block) (kind : Kind) (count : Nat) :
    ({ strict := strict } : Converter).bare (block.renamed (builtinFor calls)) kind count =
      (ofCalls strict calls).bare block kind count := by
  rw [bare, bare, typeName_renamed]
  simp only [Block.fieldTexts, Block.data_renamed]

theorem look_renamed (block : Block) :
    ({ strict := strict } : Converter).look (block.renamed (builtinFor calls)) =
      (ofCalls strict calls).look block := by
  rw [look, look, bare_renamed, kindOf, kindOf, typeName_renamed, Block.inferred_renamed,
    Block.data_renamed]

/-- A block has the same node under another name, or is refused for the same reason. -/
theorem alike_node (block : Block) :
    Alike (builtinFor calls) ((ofCalls strict calls).node .wrapping block)
      (({ strict := strict } : Converter).node .wrapping (block.renamed (builtinFor calls))) := by
  have hfield : (block.renamed (builtinFor calls)).compoundField? = block.compoundField? := by
    rw [Block.compoundField?, Block.compoundField?, Block.data_renamed]
  have hraise (found : Except ConversionError Kind) :
      found.mapError Build.wrapping.raise = found := by
    cases found <;> rfl
  rw [node, node, hraise, hraise]
  apply (alike_kind strict calls block).bind
  intro kind
  rw [hfield, itemCount_wrapping, itemCount_wrapping, Block.inferred_renamed, Block.data_renamed]
  rcases block.compoundField? with _ | ⟨name, value⟩
  · change Alike _ (.ok ((ofCalls strict calls).bare block kind _))
      (.ok (({ strict := strict } : Converter).bare (block.renamed (builtinFor calls)) kind _))
    rw [bare_renamed]
    exact .ok _
  · exact .field block name value

theorem linked_renamed (id : NodeId) (block : Block) :
    ({ strict := strict } : Converter).linked id (block.renamed (builtinFor calls)) =
      (ofCalls strict calls).linked id block := by
  rw [linked, linked, look_renamed]
  obtain ⟨data, slots, next⟩ := block
  simp only [Block.renamed, Block.slots, Block.next, Block.slotHeads_renamed,
    Block.allInSlots_renamed, Block.renamedNext_eq_map, List.length_map, Option.map_map]
  rfl

mutual

/-- Nodes with their links depend on the types that the types stand for. -/
theorem nodes_renamed : ∀ (parent prev : Option NodeId) (id : NodeId) (block : Block),
    ({ strict := strict } : Converter).nodes parent prev id (block.renamed (builtinFor calls)) =
      (ofCalls strict calls).nodes parent prev id block
  | parent, prev, id, .mk data slots next => by
      have hlinked := linked_renamed strict calls id (.mk data slots next)
      rw [Block.renamed] at hlinked ⊢
      rw [nodes, nodes, hlinked, slotNodes_renamed id (id + 1) slots,
        Block.allInSlots_renamed, List.length_map, nextNodes_renamed id _ next]

theorem slotNodes_renamed : ∀ (owner id : NodeId) (slots : List (String × Block)),
    ({ strict := strict } : Converter).slotNodes owner id
        (Block.renamedSlots (builtinFor calls) slots) =
      (ofCalls strict calls).slotNodes owner id slots
  | _, _, [] => rfl
  | owner, id, (_, block) :: rest => by
      rw [Block.renamedSlots, slotNodes, slotNodes, nodes_renamed (some owner) none id block,
        Block.all_renamed, List.length_map, slotNodes_renamed owner _ rest]

theorem nextNodes_renamed : ∀ (before id : NodeId) (next : Option Block),
    ({ strict := strict } : Converter).nextNodes before id
        (Block.renamedNext (builtinFor calls) next) =
      (ofCalls strict calls).nextNodes before id next
  | _, _, none => rfl
  | before, id, some block => nodes_renamed none (some before) id block

end

theorem topNodes_renamed (id : NodeId) (blocks : List Block) :
    ({ strict := strict } : Converter).topNodes id (blocks.map (Block.renamed (builtinFor calls))) =
      (ofCalls strict calls).topNodes id blocks := by
  induction blocks generalizing id with
  | nil => rfl
  | cons block rest ih =>
      rw [List.map_cons, topNodes, topNodes, nodes_renamed, Block.all_renamed, List.length_map, ih]

theorem topIds_renamed (id : NodeId) (blocks : List Block) :
    topIds id (blocks.map (Block.renamed (builtinFor calls))) = topIds id blocks := by
  induction blocks generalizing id with
  | nil => rfl
  | cons block rest ih => rw [List.map_cons, topIds, topIds, Block.all_renamed, List.length_map, ih]

theorem numbered_renamed (blocks : List Block) :
    ({ strict := strict } : Converter).numbered (blocks.map (Block.renamed (builtinFor calls))) =
      (ofCalls strict calls).numbered blocks := by
  rw [numbered, numbered, topNodes_renamed, topIds_renamed]

/-- Whatever mappings were requested, and in whatever order, a tree converts exactly when the
tree in which they are carried out converts without any.  Both then give the same workspace,
which compiles to the same.  Otherwise one and the same block stops both: for its type, with
the same words, or for a field of it. -/
theorem convert_ofCalls (tree : EditorTree) :
    Alike (builtinFor calls) ((ofCalls strict calls).convert tree)
        (({ strict := strict } : Converter).convert (tree.renamed (builtinFor calls))) ∧
      ∀ compiler : Compiler,
        ((ofCalls strict calls).convert tree).toOption.map compiler.compile =
          (({ strict := strict } : Converter).convert
            (tree.renamed (builtinFor calls))).toOption.map compiler.compile := by
  have halike : Alike (builtinFor calls) ((ofCalls strict calls).convert tree)
      (({ strict := strict } : Converter).convert (tree.renamed (builtinFor calls))) := by
    rw [convert, convert, convertIn_eq, convertIn_eq, EditorTree.all_renamed, List.mapM_map]
    have hnumbered := numbered_renamed strict calls tree.blocks
    change (Converter.mk ∅ strict).numbered (tree.renamed (builtinFor calls)).blocks = _
      at hnumbered
    rw [hnumbered]
    exact (Alike.mapM (alike_node strict calls) tree.all).map _
  refine ⟨halike, fun compiler => ?_⟩
  rw [halike.toOption_eq]

end Agreement

end Converter

end BlockForge
