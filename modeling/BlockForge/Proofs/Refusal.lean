import BlockForge.Proofs.Numbering

/-!
Trees that cannot be converted.

A block is refused for its type when the converter is strict and the type that the block
is treated as has no kind, and otherwise for a field that holds an array or an object
(`Refuses`).  Blocks are met in the order of their numbers, so a conversion fails exactly
where some block is refused, and with the error of the first one.  Plugging blocks in and
linking them never fails, because each slot and each `next` link is set once.

A program that checks its sums also stops at a group whose number of members does not fit
a word (`Stops`).
-/

namespace BlockForge

/-- Arrays and objects, which have no text as a field. -/
def Json.isCompound : Json → Bool
  | .array _ => true
  | .object _ => true
  | _ => false

theorem isNone_scalarText? (value : Json) : (scalarText? value).isNone = value.isCompound := by
  cases value with
  | bool b => cases b <;> rfl
  | _ => rfl

namespace Block

/-- The fields that hold arrays or objects. -/
def compoundFields (block : Block) : List (String × Json) :=
  block.data.fields.entries.filter fun e => e.2.isCompound

theorem mem_compoundFields_iff {block : Block} {name : String} {value : Json} :
    (name, value) ∈ block.compoundFields ↔
      block.data.fields.get? name = some value ∧ value.isCompound = true := by
  rw [compoundFields, List.mem_filter, Table.get?_eq_some_iff]

theorem compoundField?_eq_head? (block : Block) :
    block.compoundField? = block.compoundFields.head? := by
  simp only [compoundField?, compoundFields, isNone_scalarText?, List.head?_filter]

/-- Where at most one field holds an array or an object, looking for one finds it. -/
theorem compoundField?_eq_some_iff {block : Block} (h : block.compoundFields.length ≤ 1)
    {name : String} {value : Json} :
    block.compoundField? = some (name, value) ↔
      block.data.fields.get? name = some value ∧ value.isCompound = true := by
  rw [compoundField?_eq_head?, ← mem_compoundFields_iff]
  rcases hfields : block.compoundFields with _ | ⟨field, _ | ⟨other, rest⟩⟩
  · simp
  · simp [eq_comm]
  · simp [hfields] at h

end Block

namespace Converter

/-- The converter is strict, and the type that a block is treated as has no kind. -/
def RefusesType (c : Converter) (block : Block) : Prop :=
  c.strict = true ∧ Kind.ofTypeName? (c.typeName block) = none

/-- What is said of a block that cannot be converted.  A type is named as the tree gives
it; a field that cannot be used is only named where the type is none to be refused. -/
inductive Refuses (c : Converter) (block : Block) : ConversionError → Prop where
  | type (htype : c.RefusesType block) :
      Refuses c block (.unknownBlockType (block.data.id.getD "") block.data.type)
  | field {name : String} {value : Json} (htype : ¬ c.RefusesType block)
      (hfield : block.data.fields.get? name = some value) (hcompound : value.isCompound = true) :
      Refuses c block (.validation ("field '" ++ name ++ "' of block '" ++
        block.data.id.getD block.data.type ++ "' must be a scalar, found " ++
        value.sorted.toCompact))

/-- How a block ends a conversion in a program that checks its sums. -/
inductive Stops (c : Converter) (block : Block) : Stop → Prop where
  | failed {e : ConversionError} (hrefused : c.Refuses block e) : Stops c block (.failed e)
  | overflow (hfine : ∀ e, ¬ c.Refuses block e) (hlarge : c.Overflows block) :
      Stops c block .overflow

variable {ε : Type} {b : Build ε} {c : Converter} {block : Block} {tree : EditorTree}

theorem exists_refuses_iff : (∃ e, c.Refuses block e) ↔
    c.RefusesType block ∨
      ∃ name value, block.data.fields.get? name = some value ∧ value.isCompound = true := by
  constructor
  · rintro ⟨e, hrefused⟩
    rcases hrefused with htype | ⟨_, hfield, hcompound⟩
    · exact .inl htype
    · exact .inr ⟨_, _, hfield, hcompound⟩
  · rintro hbad
    by_cases htype : c.RefusesType block
    · exact ⟨_, .type htype⟩
    · obtain ⟨name, value, hfield, hcompound⟩ := hbad.resolve_left htype
      exact ⟨_, .field htype hfield hcompound⟩

theorem kind_of_refusesType (h : c.RefusesType block) :
    c.kind block = .error (.unknownBlockType (block.data.id.getD "") block.data.type) := by
  rw [kind, h.2, h.1]
  rfl

theorem exists_kind_of_not_refusesType (h : ¬ c.RefusesType block) :
    ∃ kind, c.kind block = .ok kind := by
  rw [kind]
  rcases hkind : Kind.ofTypeName? (c.typeName block) with _ | kind
  · have hlax : c.strict ≠ true := fun hstrict => h ⟨hstrict, hkind⟩
    exact ⟨.other, if_neg hlax⟩
  · exact ⟨kind, rfl⟩

/-- A refused block has no node. -/
theorem node_of_refuses (h : block.compoundFields.length ≤ 1) {e : ConversionError}
    (hrefused : c.Refuses block e) : c.node b block = .error (b.raise e) := by
  rw [node]
  cases hrefused with
  | type htype =>
      rw [kind_of_refusesType htype]
      rfl
  | field htype hfield hcompound =>
      obtain ⟨kind, hkind⟩ := exists_kind_of_not_refusesType htype
      rw [hkind, (Block.compoundField?_eq_some_iff h).2 ⟨hfield, hcompound⟩]
      rfl

/-- A block that is not refused has a node as soon as its parts can be counted. -/
theorem node_of_not_refuses (h : block.compoundFields.length ≤ 1)
    (hfine : ∀ e, ¬ c.Refuses block e) :
    c.node b block = itemCount b block (c.kindOf block) >>= fun count =>
      .ok (c.bare block (c.kindOf block) count) := by
  have htype : ¬ c.RefusesType block := fun htype => hfine _ (.type htype)
  obtain ⟨kind, hkind⟩ := exists_kind_of_not_refusesType htype
  obtain rfl := eq_kindOf hkind
  have hscalar : block.compoundField? = none := by
    rw [Option.eq_none_iff_forall_ne_some]
    intro field hfield
    obtain ⟨hget, hcompound⟩ := (Block.compoundField?_eq_some_iff h).1 hfield
    exact hfine _ (.field htype hget hcompound)
  rw [node, hkind, hscalar]
  rfl

/-- A block has no node exactly when it is refused or its parts cannot be counted. -/
theorem node_eq_error_iff (h : block.compoundFields.length ≤ 1) {e : ε} :
    c.node b block = .error e ↔ (∃ e', c.Refuses block e' ∧ b.raise e' = e) ∨
      (∀ e', ¬ c.Refuses block e') ∧ itemCount b block (c.kindOf block) = .error e := by
  by_cases hrefused : ∃ e', c.Refuses block e'
  · constructor
    · intro he
      obtain ⟨e', hrefused⟩ := hrefused
      rw [node_of_refuses h hrefused] at he
      exact .inl ⟨e', hrefused, Except.error.inj he⟩
    · rintro (⟨e', hrefused, rfl⟩ | ⟨hfine, _⟩)
      · exact node_of_refuses h hrefused
      · obtain ⟨e', hrefused⟩ := hrefused
        exact absurd hrefused (hfine e')
  · have hfine : ∀ e', ¬ c.Refuses block e' := not_exists.1 hrefused
    rw [node_of_not_refuses h hfine, except_bind_eq_error_iff]
    simp [hfine]

/-- Where sums wrap around, parts can always be counted. -/
theorem node_wrapping_eq_error_iff (h : block.compoundFields.length ≤ 1) {e : ConversionError} :
    c.node .wrapping block = .error e ↔ c.Refuses block e := by
  rw [node_eq_error_iff h, itemCount_wrapping]
  constructor
  · rintro (⟨e', hrefused, rfl⟩ | ⟨_, hcount⟩)
    · exact hrefused
    · cases hcount
  · intro hrefused
    exact .inl ⟨e, hrefused, rfl⟩

/-- Where sums are checked, only the largest number of a slot is too large. -/
theorem inferredCount_checked_eq_error_iff {kind : Kind} {s : Stop} :
    block.inferredCount Build.checked.succ kind = .error s ↔
      s = .overflow ∧ kind = .typeGroup ∧
        lastMember? (block.slots.map Prod.fst) = some Word.maxUnsigned := by
  cases kind
  case typeGroup =>
    rw [Block.inferredCount]
    cases hlast : lastMember? (block.slots.map Prod.fst) with
    | none => simp
    | some last =>
        obtain ⟨⟨slot, -, hnumber⟩, -⟩ := lastMember?_eq_some_iff.1 hlast
        have hle := le_of_typeIndex? hnumber
        change (if last < Word.maxUnsigned then Except.ok (last + 1) else .error .overflow) =
          .error s ↔ _
        by_cases hlt : last < Word.maxUnsigned
        · simp [hlt, Nat.ne_of_lt hlt]
        · have hlargest : last = Word.maxUnsigned := Nat.le_antisymm hle (Nat.le_of_not_lt hlt)
          simp [hlargest, eq_comm]
  all_goals simp [Block.inferredCount]

/-- Where sums are checked, a group that does not say how many members it has may have too
many to count, and no other block. -/
theorem itemCount_checked_eq_error_iff {s : Stop} :
    itemCount .checked block (c.kindOf block) = .error s ↔ s = .overflow ∧ c.Overflows block := by
  rw [Overflows, ofTypeName?_eq_group_iff, exists_numberedSlot_iff, ← Wraps, wraps_iff, itemCount]
  cases block.data.itemCount with
  | some count => simp
  | none => simp [inferredCount_checked_eq_error_iff]

/-- Where sums are checked, a block has no node exactly when it stops the program. -/
theorem node_checked_eq_error_iff (h : block.compoundFields.length ≤ 1) {s : Stop} :
    c.node .checked block = .error s ↔ c.Stops block s := by
  rw [node_eq_error_iff h, itemCount_checked_eq_error_iff]
  constructor
  · rintro (⟨e', hrefused, rfl⟩ | ⟨hfine, rfl, hlarge⟩)
    · exact .failed hrefused
    · exact .overflow hfine hlarge
  · rintro (hrefused | ⟨hfine, hlarge⟩)
    · exact .inl ⟨_, hrefused, rfl⟩
    · exact .inr ⟨hfine, rfl, hlarge⟩

/-- A conversion fails as the first block that has no node. -/
theorem convertIn_eq_error_iff {R : Block → ε → Prop}
    (h : ∀ block ∈ tree.all, ∀ e, c.node b block = .error e ↔ R block e) {e : ε} :
    c.convertIn b tree = .error e ↔ ∃ before block after, tree.all = before ++ block :: after ∧
      (∀ other ∈ before, ∀ e', ¬ R other e') ∧ R block e := by
  have hmap : c.convertIn b tree = .error e ↔ tree.all.mapM (c.node b) = .error e := by
    rw [convertIn_eq]
    rcases tree.all.mapM (c.node b) with e' | nodes <;> simp [Except.map]
  have hfine : ∀ block ∈ tree.all, (∃ node, c.node b block = .ok node) ↔ ∀ e', ¬ R block e' := by
    intro block hblock
    simp only [← h block hblock]
    rcases c.node b block with e' | node <;> simp
  rw [hmap, mapM_eq_error_iff]
  refine exists_congr fun before => exists_congr fun block => exists_congr fun after => ?_
  refine and_congr_right fun hsplit => ?_
  rw [hsplit] at h hfine
  apply and_congr
  · exact forall₂_congr fun other hother => hfine other (List.mem_append_left _ hother)
  · exact h block (List.mem_append_right _ List.mem_cons_self) e

/-- Some block is refused exactly when a first one is. -/
theorem exists_convert_eq_error_iff (h : ∀ block ∈ tree.all, block.compoundFields.length ≤ 1) :
    (∃ e, c.convert tree = .error e) ↔ ∃ block ∈ tree.all, ∃ e, c.Refuses block e := by
  have hnode : ∀ block ∈ tree.all, ∀ e, c.node .wrapping block = .error e ↔ c.Refuses block e :=
    fun block hblock _ => node_wrapping_eq_error_iff (h block hblock)
  constructor
  · rintro ⟨e, he⟩
    obtain ⟨before, block, after, hsplit, -, hrefused⟩ := (convertIn_eq_error_iff hnode).1 he
    exact ⟨block, hsplit ▸ List.mem_append_right before List.mem_cons_self, e, hrefused⟩
  · rintro ⟨block, hblock, e, hrefused⟩
    have herror := (hnode block hblock e).2 hrefused
    rw [convert, convertIn_eq]
    rcases hall : tree.all.mapM (c.node .wrapping) with e' | nodes
    · exact ⟨e', rfl⟩
    · obtain ⟨node, hok⟩ := exists_of_mapM_eq_ok hall hblock
      rw [herror] at hok
      cases hok

/-- A tree without two fields in one block that hold arrays or objects is refused exactly
when some block's type or field is, and with what is said of the first such block: the
blocks are met top-level entry by entry, each one before the blocks in its slots, the slots
in the order of their names, and all of these before the block that follows.  No conversion
fails for a slot that is taken.  A program that checks its sums ends in the same way, unless
it is stopped by a sum before that. -/
theorem convert_fails_exactly (h : ∀ block ∈ tree.all, block.compoundFields.length ≤ 1) :
    ((∃ e, c.convert tree = .error e) ↔ ∃ block ∈ tree.all,
        (c.strict = true ∧ Kind.ofTypeName? (c.typeName block) = none) ∨
          ∃ name value, block.data.fields.get? name = some value ∧ value.isCompound = true) ∧
      (∀ e, c.convert tree = .error e ↔ ∃ before block after,
        tree.all = before ++ block :: after ∧ (∀ b ∈ before, ∀ e', ¬ c.Refuses b e') ∧
          c.Refuses block e) ∧
      (∀ owner slot, c.convert tree ≠ .error (.slotOccupied owner slot)) ∧
      ∀ s, c.convertIn .checked tree = .error s ↔ ∃ before block after,
        tree.all = before ++ block :: after ∧ (∀ b ∈ before, ∀ s', ¬ c.Stops b s') ∧
          c.Stops block s := by
  have herror : ∀ e, c.convert tree = .error e ↔ ∃ before block after,
      tree.all = before ++ block :: after ∧ (∀ b ∈ before, ∀ e', ¬ c.Refuses b e') ∧
        c.Refuses block e := fun _ =>
    convertIn_eq_error_iff fun block hblock _ => node_wrapping_eq_error_iff (h block hblock)
  refine ⟨?_, herror, ?_, fun s => convertIn_eq_error_iff fun block hblock _ =>
    node_checked_eq_error_iff (h block hblock)⟩
  · rw [exists_convert_eq_error_iff h]
    exact exists_congr fun block => and_congr_right fun _ => exists_refuses_iff
  · intro owner slot hoccupied
    obtain ⟨_, block, _, _, _, hrefused⟩ := (herror _).1 hoccupied
    cases hrefused

/-- A tree with a list in a field below the first block, where nobody has given the block an
id.  Later in the order come an unknown type in another slot, on a block with such a field
of its own, and one on the block that follows. -/
def flawedTree : EditorTree :=
  let unknown : Block :=
    .mk { type := "mystery", id := some "m", fields := .ofList [("A", .object [])] } [] none
  let listed : Block :=
    .mk { type := "field_static", fields := .ofList [("TEXT", .array [.null])] } [] none
  .ofBlocks
    [.mk { type := "factory_base" }
      [("LATE", unknown), ("EARLY", .mk { type := "own_dummy" } [] (some listed))]
      (some (.mk { type := "note" } [] none))]

/-- A group with a slot of the largest number, and after it a block with a list in a
field. -/
def overfullTree : EditorTree :=
  let listed : Block :=
    .mk { type := "field_static", fields := .ofList [("TEXT", .array [.null])] } [] none
  .ofBlocks
    [.mk { type := "type_group" }
      [("TYPE18446744073709551615", .mk { type := "note" } [] none)] (some listed)]

theorem convert_fails_exactly_flawedTree :
    let c : Converter := { mapping := .ofList [("own_dummy", "input_dummy")], strict := true }
    let refusal : ConversionError :=
      .validation "field 'TEXT' of block 'field_static' must be a scalar, found [null]"
    (∀ block ∈ flawedTree.all, block.compoundFields.length ≤ 1) ∧
      c.convert flawedTree = .error refusal ∧
      (∃ before block after, flawedTree.all = before ++ block :: after ∧
        (∀ b ∈ before, ∀ e, ¬ c.Refuses b e) ∧ c.Refuses block refusal) ∧
      (∀ block ∈ overfullTree.all, block.compoundFields.length ≤ 1) ∧
      ({} : Converter).convert overfullTree = .error refusal ∧
      ({} : Converter).convertIn .checked overfullTree = .error .overflow ∧
      ∃ before block after, overfullTree.all = before ++ block :: after ∧
        (∀ b ∈ before, ∀ s, ¬ ({} : Converter).Stops b s) ∧
          ({} : Converter).Stops block .overflow := by
  intro c refusal
  have honce : ∀ block ∈ flawedTree.all, block.compoundFields.length ≤ 1 := by
    decide +kernel
  have hconvert : c.convert flawedTree = .error refusal := by decide +kernel
  have honce' : ∀ block ∈ overfullTree.all, block.compoundFields.length ≤ 1 := by
    decide +kernel
  have hchecked : ({} : Converter).convertIn .checked overfullTree = .error .overflow := by
    decide +kernel
  exact ⟨honce, hconvert, ((convert_fails_exactly honce).2.1 _).1 hconvert, honce',
    by decide +kernel, hchecked, ((convert_fails_exactly honce').2.2.2 _).1 hchecked⟩

end Converter

end BlockForge
