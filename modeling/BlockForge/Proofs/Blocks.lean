import BlockForge.Editor

/-!
Nested blocks: induction over them, the order in which they are numbered, and the
chains that they form.
-/

namespace BlockForge.Block

mutual

/-- Induction over blocks: from the blocks in the slots and the block that follows. -/
@[elab_as_elim]
theorem induct {P : Block → Prop}
    (mk : ∀ data slots next, (∀ e ∈ slots, P e.2) → (∀ b, next = some b → P b) →
      P (.mk data slots next)) : ∀ block : Block, P block
  | .mk data slots next => mk data slots next (inductSlots mk slots) (inductNext mk next)

theorem inductSlots {P : Block → Prop}
    (mk : ∀ data slots next, (∀ e ∈ slots, P e.2) → (∀ b, next = some b → P b) →
      P (.mk data slots next)) : ∀ slots : List (String × Block), ∀ e ∈ slots, P e.2
  | [], _, h => nomatch h
  | (name, block) :: rest, e, h => by
      rcases List.mem_cons.1 h with rfl | h
      · exact induct mk block
      · exact inductSlots mk rest e h

theorem inductNext {P : Block → Prop}
    (mk : ∀ data slots next, (∀ e ∈ slots, P e.2) → (∀ b, next = some b → P b) →
      P (.mk data slots next)) : ∀ next : Option Block, ∀ b, next = some b → P b
  | none, _, h => nomatch h
  | some block, _, h => Option.some.inj h ▸ induct mk block

end

mutual

/-- The block, the blocks in its slots and the blocks that follow, in the order of
their numbers. -/
def all : Block → List Block
  | mk data slots next => mk data slots next :: (allInSlots slots ++ allNext next)

def allInSlots : List (String × Block) → List Block
  | [] => []
  | (_, block) :: rest => block.all ++ allInSlots rest

def allNext : Option Block → List Block
  | none => []
  | some block => block.all

end

theorem length_all_pos (block : Block) : 0 < block.all.length := by
  cases block
  rw [all]
  exact Nat.succ_pos _

theorem mem_allInSlots_iff {block : Block} {slots : List (String × Block)} :
    block ∈ allInSlots slots ↔ ∃ e ∈ slots, block ∈ e.2.all := by
  induction slots with
  | nil => simp [allInSlots]
  | cons e rest ih => simp [allInSlots, ih]

theorem mem_all_iff {block other : Block} : other ∈ block.all ↔
    other = block ∨ (∃ e ∈ block.slots, other ∈ e.2.all) ∨
      ∃ following, block.next = some following ∧ other ∈ following.all := by
  obtain ⟨data, slots, next⟩ := block
  have hnext : other ∈ allNext next ↔
      ∃ following, next = some following ∧ other ∈ following.all := by
    cases next <;> simp [allNext]
  rw [all, List.mem_cons, List.mem_append, mem_allInSlots_iff, hnext]
  rfl

/-- The block without the ones that follow it. -/
def alone (block : Block) : Block :=
  .mk block.data block.slots none

mutual

/-- The blocks of the chain that starts with a block, each without the ones that
follow it. -/
def chain : Block → List Block
  | mk data slots next => mk data slots none :: chainNext next

def chainNext : Option Block → List Block
  | none => []
  | some block => block.chain

end

/-- The block at the head of the chain in a slot. -/
def slot? (block : Block) (name : String) : Option Block :=
  Table.find name block.slots

/-- The blocks of the chain in a slot. -/
def chainIn (block : Block) (name : String) : List Block :=
  chainNext (block.slot? name)

theorem ordered_of_slot? {block child : Block} {name : String} (h : block.Ordered)
    (hslot : block.slot? name = some child) : child.Ordered := by
  obtain ⟨data, slots, next⟩ := block
  exact slotsOrdered_iff.1 h.2.1 _ (Table.mem_of_find hslot)

theorem ordered_of_mem_chain {block other : Block} (h : block.Ordered)
    (hmem : other ∈ block.chain) : other.Ordered := by
  induction block using Block.induct with
  | mk data slots next _ hnext =>
      rw [chain] at hmem
      rcases List.mem_cons.1 hmem with rfl | hmem
      · exact ⟨h.1, h.2.1, trivial⟩
      · cases next with
        | none => cases hmem
        | some following => exact hnext following rfl h.2.2 hmem

theorem ordered_of_mem_chainIn {block other : Block} {name : String} (h : block.Ordered)
    (hmem : other ∈ block.chainIn name) : other.Ordered := by
  rw [chainIn] at hmem
  cases hslot : block.slot? name with
  | none =>
      rw [hslot] at hmem
      cases hmem
  | some child =>
      rw [hslot] at hmem
      exact ordered_of_mem_chain (ordered_of_slot? h hslot) hmem

/-- What is below a block of a chain is below or after the head of the chain. -/
theorem mem_all_of_mem_chain {block other below : Block} (hmem : other ∈ block.chain)
    (hbelow : below ∈ allInSlots other.slots) : below ∈ block.all := by
  induction block using Block.induct with
  | mk data slots next _ hnext =>
      rw [chain] at hmem
      rcases List.mem_cons.1 hmem with rfl | hmem
      · exact mem_all_iff.2 (.inr (.inl (mem_allInSlots_iff.1 hbelow)))
      · cases next with
        | none => cases hmem
        | some following =>
            exact mem_all_iff.2 (.inr (.inr ⟨following, rfl, hnext following rfl hmem⟩))

theorem mem_allInSlots_of_slot? {block child below : Block} {name : String}
    (hslot : block.slot? name = some child) (hbelow : below ∈ child.all) :
    below ∈ allInSlots block.slots :=
  mem_allInSlots_iff.2 ⟨_, Table.mem_of_find hslot, hbelow⟩

theorem mem_allInSlots_of_mem_chainIn {block other below : Block} {name : String}
    (hmem : other ∈ block.chainIn name) (hbelow : below ∈ allInSlots other.slots) :
    below ∈ allInSlots block.slots := by
  rw [chainIn] at hmem
  cases hslot : block.slot? name with
  | none =>
      rw [hslot] at hmem
      cases hmem
  | some child =>
      rw [hslot] at hmem
      exact mem_allInSlots_of_slot? hslot (mem_all_of_mem_chain hmem hbelow)

end BlockForge.Block

namespace BlockForge.EditorTree

/-- The blocks of a tree in the order of their numbers. -/
def all (tree : EditorTree) : List Block :=
  tree.blocks.flatMap Block.all

/-- A stray block, a container with another stray block after it, and a second
container.  In the first container an input, a field and a member of a type group are
switched off. -/
def crowded : EditorTree :=
  let text (s : String) (disabled : Bool) (next : Option Block) : Block :=
    .mk { type := "field_static", fields := .ofList [("TEXT", .text s)], disabled := disabled }
      [] next
  let types : Block :=
    .mk { type := "type_group" }
      [("TYPE0", .mk { type := "type_number" } [] none),
        ("TYPE1", .mk { type := "type_other", disabled := true } [] none)] none
  let second : Block :=
    .mk { type := "input_value", fields := .ofList [("INPUTNAME", .text "B")] }
      [("FIELDS", text "on" false (some (text "off" true (some (text "again" false none))))),
        ("TYPE", types)] none
  let first : Block :=
    .mk { type := "input_value", fields := .ofList [("INPUTNAME", .text "A")], disabled := true }
      [("FIELDS", text "lost" false none)] (some second)
  .ofBlocks
    [.mk { type := "note" } [] none,
      .mk { type := "factory_base", fields := .ofList [("NAME", .text "shape")] }
        [("INPUTS", first)] (some (.mk { type := "note" } [] none)),
      .mk { type := "factory_base" } [] none]

end BlockForge.EditorTree
