import BlockForge.Json
import BlockForge.Table

/-!
Editor trees: the nested blocks that a block editor saves.

A block has its own data, a chain of blocks in each of its named slots, and the
block that follows it.  A tree keeps the slots of every block in ascending order
of their names, each name once; `EditorTree.ofBlocks` brings any blocks into that
order, and of two slots of one name keeps the later one.
-/

namespace BlockForge

/-- What a saved block says about itself. -/
structure BlockData where
  type : String
  id : Option String := none
  fields : Table Json := ∅
  disabled : Bool := false
  /-- The number of parts, when the block says it. -/
  itemCount : Option Nat := none
  valueType : Option String := none

/-- A saved block: its data, its slots and the block after it. -/
inductive Block where
  | mk (data : BlockData) (slots : List (String × Block)) (next : Option Block)

namespace Block

def data : Block → BlockData
  | mk data _ _ => data

def slots : Block → List (String × Block)
  | mk _ slots _ => slots

def next : Block → Option Block
  | mk _ _ next => next

mutual

/-- The slots of the block and of every block below or after it are in ascending
order of their names. -/
def Ordered : Block → Prop
  | mk _ slots next =>
      slots.Pairwise (fun a b => a.1 < b.1) ∧ SlotsOrdered slots ∧ NextOrdered next

/-- The blocks in slots are ordered. -/
def SlotsOrdered : List (String × Block) → Prop
  | [] => True
  | (_, block) :: rest => block.Ordered ∧ SlotsOrdered rest

/-- The block that follows, if there is one, is ordered. -/
def NextOrdered : Option Block → Prop
  | none => True
  | some block => block.Ordered

end

mutual

/-- The block with all slots in order. -/
def ordered : Block → Block
  | mk data slots next => mk data (orderedSlots slots []) (orderedNext next)

/-- Enter slots one after the other among those entered before. -/
def orderedSlots : List (String × Block) → List (String × Block) → List (String × Block)
  | [], entered => entered
  | (name, block) :: rest, entered =>
      orderedSlots rest (Table.place name block.ordered entered)

def orderedNext : Option Block → Option Block
  | none => none
  | some block => some block.ordered

end

theorem slotsOrdered_iff {slots : List (String × Block)} :
    SlotsOrdered slots ↔ ∀ e ∈ slots, e.2.Ordered := by
  induction slots with
  | nil => simp [SlotsOrdered]
  | cons head rest ih => simp [SlotsOrdered, ih]

mutual

theorem ordered_ordered : ∀ block : Block, block.ordered.Ordered
  | mk data slots next => by
      have h := orderedSlots_ordered slots [] List.Pairwise.nil trivial
      exact ⟨h.1, h.2, orderedNext_ordered next⟩

theorem orderedSlots_ordered : ∀ slots entered : List (String × Block),
    entered.Pairwise (fun a b => a.1 < b.1) → SlotsOrdered entered →
      (orderedSlots slots entered).Pairwise (fun a b => a.1 < b.1) ∧
        SlotsOrdered (orderedSlots slots entered)
  | [], _, hkeys, hblocks => ⟨hkeys, hblocks⟩
  | (name, block) :: rest, entered, hkeys, hblocks => by
      refine orderedSlots_ordered rest _ (Table.pairwise_place hkeys) (slotsOrdered_iff.2 ?_)
      intro e he
      rcases Table.mem_place_imp he with rfl | he
      · exact ordered_ordered block
      · exact slotsOrdered_iff.1 hblocks e he

theorem orderedNext_ordered : ∀ next : Option Block, NextOrdered (orderedNext next)
  | none => trivial
  | some block => ordered_ordered block

end

end Block

/-- The chains of blocks on the editor's surface, each given by its head. -/
structure EditorTree where
  blocks : List Block
  ordered : ∀ block ∈ blocks, block.Ordered

/-- The tree of some blocks. -/
def EditorTree.ofBlocks (blocks : List Block) : EditorTree where
  blocks := blocks.map Block.ordered
  ordered := by
    intro block h
    obtain ⟨b, _, rfl⟩ := List.mem_map.1 h
    exact b.ordered_ordered

end BlockForge
