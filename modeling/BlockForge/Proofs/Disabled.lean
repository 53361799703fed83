import BlockForge.Proofs.Members
import BlockForge.Proofs.TreeDefinition

/-!
Disabled blocks leave no trace.

Deleting the disabled blocks in the first container, with everything in their slots,
leaves its descriptor as it is, or what it fails with (`compile_pruned`).  A chain of
inputs or of fields goes on behind a deleted block; any other chain ends before it.

There is one exception, where sums wrap around.  A group with a slot of the largest number
there is counts no members, and counts the ones it has as soon as a disabled block in that
slot is gone (`LosesTop`).
-/

namespace BlockForge

namespace Block

/-- Whether every block of the chain in a slot counts, and not only its head. -/
def isRow (name : String) : Bool :=
  name == "INPUTS" || name == "FIELDS"

mutual

/-- What is left of a chain without its disabled blocks: up to the first of them, or
spliced where they were. -/
def live (splice : Bool) : Block → Option Block
  | mk data slots next =>
      if data.disabled then
        if splice then liveNext splice next else none
      else some (mk data (liveSlots slots) (liveNext splice next))

/-- What is left of the chains in slots; a slot of which nothing is left is gone. -/
def liveSlots : List (String × Block) → List (String × Block)
  | [] => []
  | (name, block) :: rest =>
      match block.live (isRow name) with
      | some left => (name, left) :: liveSlots rest
      | none => liveSlots rest

def liveNext (splice : Bool) : Option Block → Option Block
  | none => none
  | some block => block.live splice

end

/-- The block without the disabled blocks in its slots, and with empty slots if it is
disabled itself. -/
def pruned : Block → Block
  | mk data slots next => mk data (if data.disabled then [] else liveSlots slots) next

@[simp] theorem data_pruned (block : Block) : block.pruned.data = block.data := by
  cases block
  rfl

theorem live_of_disabled {block : Block} (h : block.data.disabled = true) :
    block.live false = none := by
  cases block
  rw [live]
  exact if_pos h

theorem live_of_enabled {block : Block} (h : block.data.disabled = false) (splice : Bool) :
    block.live splice =
      some (.mk block.data (liveSlots block.slots) (liveNext splice block.next)) := by
  cases block
  rw [live]
  exact if_neg (ne_true_of_eq_false h)

theorem exists_of_mem_liveSlots {name : String} {left : Block} {slots : List (String × Block)}
    (h : (name, left) ∈ liveSlots slots) :
    ∃ block, (name, block) ∈ slots ∧ block.live (isRow name) = some left := by
  induction slots with
  | nil => cases h
  | cons slot rest ih =>
      obtain ⟨key, block⟩ := slot
      have hrest : (name, left) ∈ liveSlots rest →
          ∃ block', (name, block') ∈ (key, block) :: rest ∧
            block'.live (isRow name) = some left := by
        intro h
        obtain ⟨block', hblock', hlive⟩ := ih h
        exact ⟨block', List.mem_cons_of_mem _ hblock', hlive⟩
      rw [liveSlots] at h
      split at h
      next hlive =>
        rcases List.mem_cons.1 h with heq | h
        · cases heq
          exact ⟨block, List.mem_cons_self, hlive⟩
        · exact hrest h
      next => exact hrest h

theorem mem_liveSlots {name : String} {block left : Block} {slots : List (String × Block)}
    (h : (name, block) ∈ slots) (hlive : block.live (isRow name) = some left) :
    (name, left) ∈ liveSlots slots := by
  induction slots with
  | nil => cases h
  | cons slot rest ih =>
      obtain ⟨key, other⟩ := slot
      rw [liveSlots]
      rcases List.mem_cons.1 h with heq | h
      · cases heq
        rw [hlive]
        exact List.mem_cons_self
      · split
        next => exact List.mem_cons_of_mem _ (ih h)
        next => exact ih h

theorem names_liveSlots_subset (slots : List (String × Block)) :
    (liveSlots slots).map Prod.fst ⊆ slots.map Prod.fst := by
  intro name hname
  obtain ⟨e, he, rfl⟩ := List.mem_map.1 hname
  obtain ⟨block, hblock, _⟩ := exists_of_mem_liveSlots he
  exact List.mem_map.2 ⟨_, hblock, rfl⟩

theorem liveSlots_ascending {slots : List (String × Block)}
    (h : slots.Pairwise fun a b => a.1 < b.1) :
    (liveSlots slots).Pairwise fun a b => a.1 < b.1 := by
  induction slots with
  | nil => exact .nil
  | cons slot rest ih =>
      obtain ⟨hslot, hrest⟩ := List.pairwise_cons.1 h
      rw [liveSlots]
      split
      next left _ =>
        refine List.pairwise_cons.2 ⟨?_, ih hrest⟩
        intro e he
        obtain ⟨block, hblock, _⟩ := exists_of_mem_liveSlots he
        exact hslot (e.1, block) hblock
      next => exact ih hrest

/-- What is in a slot is what is left of the chain in it. -/
theorem find_liveSlots {slots : List (String × Block)} (h : slots.Pairwise fun a b => a.1 < b.1)
    (name : String) :
    Table.find name (liveSlots slots) = (Table.find name slots).bind (live (isRow name)) := by
  induction slots with
  | nil => rfl
  | cons slot rest ih =>
      obtain ⟨key, block⟩ := slot
      obtain ⟨hslot, hrest⟩ := List.pairwise_cons.1 h
      rw [liveSlots, Table.find]
      by_cases hname : name = key
      · subst hname
        rw [if_pos rfl, Option.bind_some]
        split
        next left hleft => rw [hleft, Table.find, if_pos rfl]
        next hnone =>
          rw [hnone, ih hrest, Table.find_eq_none_of_lt hslot]
          rfl
      · rw [if_neg hname, ← ih hrest]
        split
        next => rw [Table.find, if_neg hname]
        next => rfl

theorem ordered_of_live {block left : Block} {splice : Bool} (h : block.Ordered)
    (hleft : block.live splice = some left) : left.Ordered := by
  induction block using Block.induct generalizing splice left with
  | mk data slots next hslots hnext =>
      have hafter : ∀ left, liveNext splice next = some left → left.Ordered := by
        intro left hleft
        cases next with
        | none => cases hleft
        | some following => exact hnext following rfl h.2.2 hleft
      rw [live] at hleft
      split at hleft
      next =>
        split at hleft
        next => exact hafter left hleft
        next => cases hleft
      next =>
        obtain rfl := Option.some.inj hleft
        refine ⟨liveSlots_ascending h.1, slotsOrdered_iff.2 ?_, ?_⟩
        · intro e he
          obtain ⟨block, hblock, hlive⟩ := exists_of_mem_liveSlots he
          exact hslots _ hblock (slotsOrdered_iff.1 h.2.1 _ hblock) hlive
        · cases hlive : liveNext splice next with
          | none => trivial
          | some left => exact hafter left hlive

/-- Every block that is left has the data of a block that was there, and no slots that this
one lacks. -/
theorem exists_data_of_live {block left other : Block} {splice : Bool}
    (hleft : block.live splice = some left) (hother : other ∈ left.all) :
    ∃ b ∈ block.all, other.data = b.data ∧
      other.slots.map Prod.fst ⊆ b.slots.map Prod.fst := by
  induction block using Block.induct generalizing splice left with
  | mk data slots next hslots hnext =>
      have hafter : ∀ left, liveNext splice next = some left → other ∈ left.all →
          ∃ b ∈ (mk data slots next).all, other.data = b.data ∧
            other.slots.map Prod.fst ⊆ b.slots.map Prod.fst := by
        intro left hleft hother
        cases next with
        | none => cases hleft
        | some following =>
            obtain ⟨b, hb, hsame⟩ := hnext following rfl hleft hother
            exact ⟨b, mem_all_iff.2 (.inr (.inr ⟨following, rfl, hb⟩)), hsame⟩
      rw [live] at hleft
      split at hleft
      next =>
        split at hleft
        next => exact hafter left hleft hother
        next => cases hleft
      next =>
        obtain rfl := Option.some.inj hleft
        rcases mem_all_iff.1 hother with rfl | ⟨e, he, hother⟩ | ⟨left, hlive, hother⟩
        · exact ⟨_, mem_all_iff.2 (.inl rfl), rfl, names_liveSlots_subset slots⟩
        · obtain ⟨block, hblock, hlive⟩ := exists_of_mem_liveSlots he
          obtain ⟨b, hb, hsame⟩ := hslots _ hblock hlive hother
          exact ⟨b, mem_all_iff.2 (.inr (.inl ⟨_, hblock, hb⟩)), hsame⟩
        · exact hafter left hlive hother

/-- The blocks of a spliced chain are the ones that are switched on. -/
theorem chainNext_live (block : Block) :
    chainNext (block.live true) =
      (block.chain.filter fun b => !b.data.disabled).map pruned := by
  induction block using Block.induct with
  | mk data slots next _ hnext =>
      have hafter : chainNext (liveNext true next) =
          ((chainNext next).filter fun b => !b.data.disabled).map pruned := by
        cases next with
        | none => rfl
        | some following => exact hnext following rfl
      rw [live, chain, List.filter_cons, Block.data]
      cases hdisabled : data.disabled with
      | true => exact hafter
      | false =>
          have hhead : pruned (mk data slots none) = mk data (liveSlots slots) none := by
            rw [pruned, hdisabled]
            rfl
          change chain (mk data (liveSlots slots) (liveNext true next)) =
            pruned (mk data slots none) ::
              ((chainNext next).filter fun b => !b.data.disabled).map pruned
          rw [chain, hhead, hafter]

/-- What a slot of a block that is switched on holds once the disabled blocks are gone. -/
theorem slot?_pruned {block : Block} (h : block.Ordered) (hon : block.data.disabled = false)
    (name : String) : block.pruned.slot? name = (block.slot? name).bind (live (isRow name)) := by
  obtain ⟨data, slots, next⟩ := block
  have hpruned : (mk data slots next).pruned = mk data (liveSlots slots) next := by
    change data.disabled = false at hon
    rw [pruned, hon]
    rfl
  rw [hpruned]
  exact find_liveSlots h.1 name

/-- In a chain of inputs or of fields the same blocks are left. -/
theorem shown_pruned {block : Block} (h : block.Ordered) (name : String)
    (hrow : isRow name = true) :
    block.pruned.shown (!block.data.disabled) name =
      (block.shown (!block.data.disabled) name).map pruned := by
  rw [shown, shown, chainIn, chainIn]
  cases hon : block.data.disabled with
  | true =>
      have hnone : ∀ blocks : List Block,
          (blocks.filter fun b => !true && !b.data.disabled) = [] := by
        intro blocks
        exact List.filter_eq_nil_iff.2 fun b _ => Bool.false_ne_true
      rw [hnone, hnone]
      rfl
  | false =>
      rw [slot?_pruned h hon, hrow]
      cases block.slot? name with
      | none => rfl
      | some child =>
          have hsame : (fun b => !b.data.disabled) ∘ pruned = fun b => !b.data.disabled := by
            funext b
            rw [Function.comp_apply, data_pruned]
          rw [Option.bind_some, chainNext_live]
          change ((child.chain.filter fun b => !b.data.disabled).map pruned).filter
            (fun b => !b.data.disabled) = (child.chain.filter fun b => !b.data.disabled).map pruned
          rw [List.filter_map, hsame, List.filter_filter]
          simp only [Bool.and_self]

end Block

/-- The first of some blocks that has a property, changed. -/
def pruneFirst (p : Block → Bool) : List Block → List Block
  | [] => []
  | block :: rest => if p block then block.pruned :: rest else block :: pruneFirst p rest

namespace Converter

variable {c : Converter}

/-- A group that is switched on counts no members, because a slot has the largest number
there is, and would count some if the disabled blocks in its slots were gone. -/
def LosesTop (c : Converter) (block : Block) : Prop :=
  block.data.disabled = false ∧ c.Overflows block ∧
    ∀ e ∈ block.slots, NumberedSlot e.1 Word.maxUnsigned → e.2.data.disabled = true

/-- No block below the given one loses its slot of the largest number. -/
def KeepsTop (c : Converter) (block : Block) : Prop :=
  ∀ below ∈ Block.allInSlots block.slots, ¬ c.LosesTop below

theorem look_of_not_group {data : BlockData} {slots : List (String × Block)}
    {next : Option Block} (h : (c.look (.mk data slots next)).kind ≠ .typeGroup)
    (slots' : List (String × Block)) (next' : Option Block) :
    c.look (.mk data slots' next') = c.look (.mk data slots next) := by
  have hcount : ∀ kind : Kind, kind ≠ .typeGroup →
      (Block.mk data slots' next').inferred kind = (Block.mk data slots next).inferred kind := by
    intro kind hkind
    cases kind
    case typeGroup => exact absurd rfl hkind
    all_goals rfl
  have hkind : c.kindOf (.mk data slots' next') = c.kindOf (.mk data slots next) := rfl
  rw [kind_look] at h
  rw [look, look, hkind, hcount _ h]
  rfl

theorem token?_pruned (block : Block) : (c.look block.pruned).token? = (c.look block).token? := by
  obtain ⟨data, slots, next⟩ := block
  have hnone : ∀ node : Node, node.kind = .typeGroup → node.token? = none := by
    intro node hnode
    rw [Node.token?, hnode]
  by_cases hkind : (c.look (.mk data slots next)).kind = .typeGroup
  · rw [hnone _ hkind, Block.pruned]
    exact hnone _ hkind
  · rw [Block.pruned, look_of_not_group hkind]

theorem itemCount_of_group {data : BlockData} {slots : List (String × Block)}
    {next : Option Block} (h : (c.look (.mk data slots next)).kind = .typeGroup) :
    (c.look (.mk data slots next)).itemCount =
      data.itemCount.getD (memberCount (slots.map Prod.fst)) := by
  rw [itemCount_look, ← kind_look, h]
  rfl

theorem isRow_of_toList {name : String} (h : name.toList.head? = some 'T') :
    Block.isRow name = false := by
  have hne : ∀ other : String, other.toList.head? ≠ some 'T' → name ≠ other := by
    rintro other hother rfl
    exact hother h
  rw [Block.isRow, Bool.or_eq_false_iff, beq_eq_false_iff_ne, beq_eq_false_iff_ne]
  exact ⟨hne _ (by decide), hne _ (by decide)⟩

/-- A slot of the largest number is still there. -/
theorem wraps_liveSlots {data : BlockData} {slots : List (String × Block)}
    {next : Option Block} (hkeeps : ¬ c.LosesTop (.mk data slots next))
    (hon : data.disabled = false) (hkind : (c.look (.mk data slots next)).kind = .typeGroup)
    (hcount : data.itemCount = none) (h : Wraps (slots.map Prod.fst)) :
    Wraps ((Block.liveSlots slots).map Prod.fst) := by
  by_contra hlost
  refine hkeeps ⟨hon, ⟨hcount, ofTypeName?_eq_group_iff.2 hkind, exists_numberedSlot_iff.2 h⟩, ?_⟩
  intro e he hnumber
  by_contra henabled
  rw [Bool.not_eq_true] at henabled
  have hrow : Block.isRow e.1 = false := by
    obtain ⟨-, sign, digits, hname, -⟩ := hnumber
    refine isRow_of_toList ?_
    rw [hname]
    rfl
  have hlive := Block.mem_liveSlots he (Block.live_of_enabled henabled (Block.isRow e.1))
  exact hlost ⟨e.1, List.mem_map.2 ⟨_, hlive, rfl⟩, typeIndex?_eq_some_iff.2 hnumber⟩

/-- A group may be taken to have fewer members, but only by some that are not there. -/
theorem itemCount_live {data : BlockData} {slots : List (String × Block)}
    {next : Option Block} (hkeeps : ¬ c.LosesTop (.mk data slots next))
    (hon : data.disabled = false) (h : (c.look (.mk data slots next)).kind = .typeGroup)
    (next' : Option Block) :
    (c.look (.mk data (Block.liveSlots slots) next')).itemCount ≤
        (c.look (.mk data slots next)).itemCount ∧
      ∀ i, (c.look (.mk data (Block.liveSlots slots) next')).itemCount ≤ i →
        i < (c.look (.mk data slots next)).itemCount →
        Table.find (memberSlot i) (Block.liveSlots slots) = none := by
  have hlive : (c.look (.mk data (Block.liveSlots slots) next')).kind = .typeGroup := h
  rw [itemCount_of_group h, itemCount_of_group hlive]
  cases hcount : data.itemCount with
  | some count => exact ⟨Nat.le_refl _, fun i hle hlt => absurd hlt (Nat.not_lt_of_le hle)⟩
  | none =>
      rw [Option.getD_none, Option.getD_none]
      by_cases hwraps : Wraps (slots.map Prod.fst)
      · have hstill := wraps_liveSlots hkeeps hon h hcount hwraps
        rw [memberCount_of_wraps hwraps, memberCount_of_wraps hstill]
        exact ⟨Nat.le_refl _, fun i _ hlt => absurd hlt (Nat.not_lt_zero i)⟩
      · have hsubset := Block.names_liveSlots_subset slots
        refine ⟨memberCount_mono hsubset hwraps, fun i hle hlt => ?_⟩
        cases hfind : Table.find (memberSlot i) (Block.liveSlots slots) with
        | none => rfl
        | some block =>
            have hmem : memberSlot i ∈ (Block.liveSlots slots).map Prod.fst :=
              List.mem_map.2 ⟨_, Table.mem_of_find hfind, rfl⟩
            have hcounted :=
              lt_memberCount_of_mem (fun h => hwraps (Wraps.mono hsubset h)) hmem hlt
            exact absurd hcounted (Nat.not_lt_of_le hle)

/-- The member slots of which something is left. -/
theorem members_live {slots : List (String × Block)} (h : slots.Pairwise fun a b => a.1 < b.1)
    (hslots : ∀ e ∈ slots, ((e.2.live false).map c.typeNames).getD (.ok []) = c.typeNames e.2)
    (i : Nat) :
    (Table.find (memberSlot i) (c.typeNamesInSlots (Block.liveSlots slots))).getD (.ok []) =
      (Table.find (memberSlot i) (c.typeNamesInSlots slots)).getD (.ok []) := by
  have hmember : Block.isRow (memberSlot i) = false :=
    isRow_of_toList (by rw [toList_memberSlot]; rfl)
  rw [find_typeNamesInSlots, find_typeNamesInSlots, Block.find_liveSlots h, hmember]
  cases hfind : Table.find (memberSlot i) slots with
  | none => rfl
  | some block => exact hslots _ (Table.mem_of_find hfind)

/-- The names of a block that is switched on, of whose slots the disabled blocks are
gone. -/
theorem namesWith_live {data : BlockData} {slots : List (String × Block)} {next : Option Block}
    (hkeeps : ¬ c.LosesTop (.mk data slots next)) (hon : data.disabled = false)
    {members : String → Except GenerationError (List String)}
    (hmembers : ∀ i, (Table.find (memberSlot i)
      (c.typeNamesInSlots (Block.liveSlots slots))).getD (.ok []) = members (memberSlot i))
    (next' : Option Block) :
    ((c.look (.mk data (Block.liveSlots slots) next')).namesWith fun name =>
        (Table.find name (c.typeNamesInSlots (Block.liveSlots slots))).getD (.ok [])) =
      (c.look (.mk data slots next)).namesWith members := by
  by_cases hkind : (c.look (.mk data slots next)).kind = .typeGroup
  -- Members that are no longer counted are gone, and stood for nothing before.
  · obtain ⟨hle, hgone⟩ := itemCount_live hkeeps hon hkind next'
    have hlive : (c.look (.mk data (Block.liveSlots slots) next')).kind = .typeGroup := hkind
    have hempty : ∀ i, (c.look (.mk data (Block.liveSlots slots) next')).itemCount ≤ i →
        i < (c.look (.mk data slots next)).itemCount → members (memberSlot i) = .ok [] := by
      intro i hi hlt
      rw [← hmembers, find_typeNamesInSlots, hgone i hi hlt]
      rfl
    rw [Node.namesWith_of_group hkind, Node.namesWith_of_group hlive,
      flatten_mapM_range hle hempty]
    simp only [hmembers]
  · rw [look_of_not_group hkind, Node.namesWith_of_not_group hkind,
      Node.namesWith_of_not_group hkind]

/-- The names of a type tree of which the disabled blocks are gone. -/
theorem typeNames_live {block : Block} (h : block.Ordered)
    (hkeeps : ∀ b ∈ block.all, ¬ c.LosesTop b) :
    ((block.live false).map c.typeNames).getD (.ok []) = c.typeNames block := by
  induction block using Block.induct with
  | mk data slots next hslots _ =>
      rw [Block.live, typeNames]
      cases hdisabled : data.disabled with
      | true => rfl
      | false =>
          have hmembers := members_live h.1 (c := c) fun e he =>
            hslots e he (Block.slotsOrdered_iff.1 h.2.1 e he) fun b hb =>
              hkeeps b (Block.mem_all_iff.2 (.inr (.inl ⟨e, he, hb⟩)))
          rw [if_neg Bool.false_ne_true, if_neg Bool.false_ne_true, Option.map_some,
            Option.getD_some, typeNames, hdisabled, if_neg Bool.false_ne_true]
          exact namesWith_live (hkeeps _ (Block.mem_all_iff.2 (.inl rfl))) hdisabled hmembers
            (Block.liveNext false next)

/-- The constraint in a slot other than those of inputs and fields. -/
theorem typeConstraint_pruned {block : Block} (h : block.Ordered) (hkeeps : c.KeepsTop block)
    (name : String) (hrow : Block.isRow name = false) :
    c.typeConstraint (!block.data.disabled) block.pruned name =
      c.typeConstraint (!block.data.disabled) block name := by
  have hnames : c.typeNamesIn (!block.data.disabled) block.pruned name =
      c.typeNamesIn (!block.data.disabled) block name := by
    rw [typeNamesIn, typeNamesIn]
    cases hon : block.data.disabled with
    | true => rfl
    | false =>
        rw [Block.slot?_pruned h hon, hrow]
        cases hslot : block.slot? name with
        | none => rfl
        | some child =>
            exact typeNames_live (Block.ordered_of_slot? h hslot) fun b hb =>
              hkeeps b (Block.mem_allInSlots_of_slot? hslot hb)
  rw [typeConstraint, typeConstraint, hnames]

/-- The row of an input that is switched on. -/
theorem row_pruned {block : Block} (h : block.Ordered) (hkeeps : c.KeepsTop block)
    (hon : block.data.disabled = false) (kind : InputKind) :
    c.row (block.pruned, kind) = c.row (block, kind) := by
  have htokens : c.tokens block.pruned = c.tokens block := by
    have hshown := Block.shown_pruned h "FIELDS" rfl
    rw [hon] at hshown
    rw [tokens, tokens, ← Bool.not_false, hshown, List.filterMap_map]
    congr 1
    funext field
    exact token?_pruned field
  have hcheck := typeConstraint_pruned h hkeeps "TYPE" rfl
  rw [hon, Bool.not_false] at hcheck
  rw [row, row, hcheck, htokens]
  cases block
  rfl

theorem inputs_pruned {root : Block} (h : root.Ordered) :
    c.inputs root.pruned = (c.inputs root).map fun e => (e.1.pruned, e.2) := by
  rw [inputs, inputs, Block.data_pruned, Block.shown_pruned h _ rfl, List.filterMap_map,
    List.map_filterMap]
  congr 1
  funext block
  have hkind : (c.look block.pruned).kind = (c.look block).kind := by
    cases block
    rfl
  rw [Function.comp_apply, hkind, Option.map_map]
  rfl

theorem rows_pruned {root : Block} (h : root.Ordered) (hkeeps : c.KeepsTop root) :
    (c.inputs root.pruned).mapM c.row = (c.inputs root).mapM c.row := by
  have hinputs : ∀ e ∈ c.inputs root,
      e.1.Ordered ∧ c.KeepsTop e.1 ∧ e.1.data.disabled = false := by
    intro e he
    obtain ⟨block, hblock, hsome⟩ := List.mem_filterMap.1 he
    obtain ⟨kind, _, rfl⟩ := Option.map_eq_some_iff.1 hsome
    obtain ⟨hmem, hon⟩ := List.mem_filter.1 hblock
    rw [Bool.and_eq_true] at hon
    exact ⟨Block.ordered_of_mem_chainIn h hmem,
      fun b hb => hkeeps b (Block.mem_allInSlots_of_mem_chainIn hmem hb), by simpa using hon.2⟩
  rw [inputs_pruned h, List.mapM_map]
  refine mapM_eq_of_forall₂ (R := fun a b => a = b ∧ a ∈ c.inputs root)
    (List.forall₂_same.2 fun e he => ⟨rfl, he⟩) ?_
  rintro e _ ⟨rfl, he⟩
  obtain ⟨hordered, hbelow, hon⟩ := hinputs e he
  exact row_pruned hordered hbelow hon e.2

theorem connections_pruned {root : Block} (h : root.Ordered) (hkeeps : c.KeepsTop root) :
    c.connections root.pruned = c.connections root := by
  have hlook : (c.look root.pruned).field? "CONNECTIONS" = (c.look root).field? "CONNECTIONS" := by
    cases root
    rfl
  rw [connections, connections, hlook, Block.data_pruned, typeConstraint_pruned h hkeeps _ rfl,
    typeConstraint_pruned h hkeeps _ rfl, typeConstraint_pruned h hkeeps _ rfl]

theorem hue?_pruned {root : Block} (h : root.Ordered) : c.hue? root.pruned = c.hue? root := by
  rw [hue?, hue?, Block.data_pruned]
  cases hon : root.data.disabled with
  | true => cases root.pruned.slot? "COLOUR" <;> cases root.slot? "COLOUR" <;> rfl
  | false =>
      rw [Block.slot?_pruned h hon]
      cases root.slot? "COLOUR" with
      | none => rfl
      | some colour =>
          have hrow : Block.isRow "COLOUR" = false := rfl
          rw [Option.bind_some, hrow]
          dsimp only
          cases hcolour : colour.data.disabled with
          | true =>
              rw [Block.live_of_disabled hcolour]
              rfl
          | false =>
              rw [Block.live_of_enabled hcolour]
              dsimp only
              rw [Block.data, hcolour]
              cases colour
              rfl

/-- A container defines the same with and without the disabled blocks in it. -/
theorem define_pruned (comp : Compiler) {root : Block} (h : root.Ordered)
    (hkeeps : c.KeepsTop root) : comp.define c root.pruned = comp.define c root := by
  rw [Compiler.define, Compiler.define, rows_pruned h hkeeps, connections_pruned h hkeeps,
    hue?_pruned h]
  cases root
  rfl

end Converter

theorem Block.ordered_pruned {block : Block} (h : block.Ordered) : block.pruned.Ordered := by
  obtain ⟨data, slots, next⟩ := block
  rw [pruned]
  split
  next => exact ⟨.nil, trivial, h.2.2⟩
  next =>
    refine ⟨liveSlots_ascending h.1, slotsOrdered_iff.2 ?_, h.2.2⟩
    intro e he
    obtain ⟨block, hblock, hlive⟩ := exists_of_mem_liveSlots he
    exact ordered_of_live (slotsOrdered_iff.1 h.2.1 _ hblock) hlive

theorem Block.exists_data_of_pruned {block other : Block} (h : other ∈ block.pruned.all) :
    ∃ b ∈ block.all, other.data = b.data ∧
      other.slots.map Prod.fst ⊆ b.slots.map Prod.fst := by
  obtain ⟨data, slots, next⟩ := block
  rcases mem_all_iff.1 h with rfl | ⟨e, he, hbelow⟩ | ⟨following, hnext, hafter⟩
  · refine ⟨_, mem_all_iff.2 (.inl rfl), rfl, ?_⟩
    change (if data.disabled then [] else liveSlots slots).map Prod.fst ⊆ slots.map Prod.fst
    split
    next => exact List.nil_subset _
    next => exact names_liveSlots_subset slots
  · change e ∈ (if data.disabled then [] else liveSlots slots) at he
    split at he
    next => cases he
    next =>
      obtain ⟨block, hblock, hlive⟩ := exists_of_mem_liveSlots he
      obtain ⟨b, hb, hsame⟩ := exists_data_of_live hlive hbelow
      exact ⟨b, mem_all_iff.2 (.inr (.inl ⟨_, hblock, hb⟩)), hsame⟩
  · exact ⟨other, mem_all_iff.2 (.inr (.inr ⟨following, hnext, hafter⟩)), rfl,
      List.Subset.refl _⟩

namespace EditorTree

theorem mem_pruneFirst {p : Block → Bool} {blocks : List Block} {other : Block}
    (h : other ∈ pruneFirst p blocks) :
    other ∈ blocks ∨ ∃ block ∈ blocks, other = block.pruned := by
  induction blocks with
  | nil => cases h
  | cons block rest ih =>
      rw [pruneFirst] at h
      split at h
      next =>
        rcases List.mem_cons.1 h with rfl | h
        · exact .inr ⟨block, List.mem_cons_self, rfl⟩
        · exact .inl (List.mem_cons_of_mem _ h)
      next =>
        rcases List.mem_cons.1 h with rfl | h
        · exact .inl List.mem_cons_self
        · exact (ih h).imp (List.mem_cons_of_mem _) fun ⟨b, hb, hsame⟩ =>
            ⟨b, List.mem_cons_of_mem _ hb, hsame⟩

/-- The tree without the disabled blocks in its first container. -/
def pruned (c : Converter) (tree : EditorTree) : EditorTree where
  blocks := pruneFirst c.isContainer tree.blocks
  ordered := by
    intro other hother
    rcases mem_pruneFirst hother with hother | ⟨block, hblock, rfl⟩
    · exact tree.ordered other hother
    · exact Block.ordered_pruned (tree.ordered block hblock)

end EditorTree

namespace Converter

variable {c : Converter}

theorem isEmpty_pruneFirst (p : Block → Bool) (blocks : List Block) :
    (pruneFirst p blocks).isEmpty = blocks.isEmpty := by
  cases blocks with
  | nil => rfl
  | cons block rest =>
      rw [pruneFirst]
      split <;> rfl

theorem find?_pruneFirst {p : Block → Bool} (hp : ∀ block, p block.pruned = p block)
    (blocks : List Block) : (pruneFirst p blocks).find? p = (blocks.find? p).map Block.pruned := by
  induction blocks with
  | nil => rfl
  | cons block rest ih =>
      rw [pruneFirst]
      cases hblock : p block with
      | true =>
          rw [if_pos rfl, List.find?_cons, List.find?_cons, hp, hblock]
          rfl
      | false =>
          rw [if_neg Bool.false_ne_true, List.find?_cons, List.find?_cons, hblock]
          exact ih

/-- A tree that converts does so without the disabled blocks in its first container too. -/
theorem convertIn_pruned {ε : Type} {b : Build ε} {tree : EditorTree} {ws : Workspace}
    (h : c.convertIn b tree = .ok ws) : ∃ ws', c.convertIn b (tree.pruned c) = .ok ws' := by
  refine convertIn_of_data h fun other hother => ?_
  obtain ⟨block, hblock, hother⟩ := List.mem_flatMap.1 hother
  rcases EditorTree.mem_pruneFirst hblock with hblock | ⟨whole, hwhole, rfl⟩
  · exact ⟨other, List.mem_flatMap.2 ⟨block, hblock, hother⟩, rfl, List.Subset.refl _⟩
  · obtain ⟨b, hb, hsame⟩ := Block.exists_data_of_pruned hother
    exact ⟨b, List.mem_flatMap.2 ⟨whole, hwhole, hb⟩, hsame⟩

theorem compile_eq_of_keepsTop {ε : Type} {b : Build ε} (comp : Compiler) {tree : EditorTree}
    {ws ws' : Workspace} (h : c.convertIn b tree = .ok ws)
    (h' : c.convertIn b (tree.pruned c) = .ok ws')
    (hkeeps : ∀ root, tree.blocks.find? c.isContainer = some root → c.KeepsTop root) :
    comp.compile ws' = comp.compile ws := by
  have hcontainer : ∀ block : Block, c.isContainer block.pruned = c.isContainer block := by
    intro block
    cases block
    rfl
  have hempty : (tree.pruned c).blocks.isEmpty = tree.blocks.isEmpty :=
    isEmpty_pruneFirst c.isContainer tree.blocks
  have hfind : (tree.pruned c).blocks.find? c.isContainer =
      (tree.blocks.find? c.isContainer).map Block.pruned := find?_pruneFirst hcontainer tree.blocks
  rw [compile_convert comp h, compile_convert comp h', hempty, hfind]
  cases hroot : tree.blocks.find? c.isContainer with
  | none => rfl
  | some root =>
      have hordered := tree.ordered root (List.mem_of_find?_eq_some hroot)
      exact define_pruned comp hordered (hkeeps root hroot)

/-- Where sums are checked, no group of a converted tree has a slot of the largest number. -/
theorem not_overflows_of_convertIn_checked {tree : EditorTree} {ws : Workspace}
    (h : c.convertIn .checked tree = .ok ws) {block : Block} (hblock : block ∈ tree.all) :
    ¬ c.Overflows block := by
  rintro ⟨hcount, hgroup, hlarge⟩
  obtain ⟨-, -, hok, -⟩ := node_eq_ok_iff.1 ((convertIn_eq_ok_iff.1 h).1 block hblock)
  have hlast := wraps_iff.1 (exists_numberedSlot_iff.1 hlarge)
  rw [ofTypeName?_eq_group_iff.1 hgroup, itemCount, hcount] at hok
  change (block.inferredCount Build.checked.succ .typeGroup).isOk = true at hok
  rw [Block.inferredCount, hlast] at hok
  cases hok

theorem keepsTop_of_convertIn_checked {tree : EditorTree} {ws : Workspace}
    (h : c.convertIn .checked tree = .ok ws) {root : Block}
    (hroot : tree.blocks.find? c.isContainer = some root) : c.KeepsTop root := by
  intro below hbelow hloses
  have hmem : below ∈ tree.all := List.mem_flatMap.2 ⟨root, List.mem_of_find?_eq_some hroot,
    Block.mem_all_iff.2 (.inr (.inl (Block.mem_allInSlots_iff.1 hbelow)))⟩
  exact not_overflows_of_convertIn_checked h hmem hloses.2.1

/-- Disabled blocks in the first container contribute nothing to what it defines and
affect nothing else: without them the tree converts as well, and compiling gives the
same descriptor or the same error.  Where sums wrap around, this needs that no group in the
container loses its slot of the largest number with a disabled block. -/
theorem compile_pruned (comp : Compiler) (c : Converter) (tree : EditorTree) :
    (∀ ws, c.convertIn .checked tree = .ok ws →
      ∃ ws', c.convertIn .checked (tree.pruned c) = .ok ws' ∧
        comp.compile ws' = comp.compile ws) ∧
    ∀ ws, c.convert tree = .ok ws → ∃ ws', c.convert (tree.pruned c) = .ok ws' ∧
      ((∀ root, tree.blocks.find? c.isContainer = some root → c.KeepsTop root) →
        comp.compile ws' = comp.compile ws) := by
  constructor
  · intro ws h
    obtain ⟨ws', h'⟩ := convertIn_pruned h
    exact ⟨ws', h', compile_eq_of_keepsTop comp h h' fun _ => keepsTop_of_convertIn_checked h⟩
  · intro ws h
    obtain ⟨ws', h'⟩ := convertIn_pruned h
    exact ⟨ws', h', compile_eq_of_keepsTop comp h h'⟩

theorem compile_pruned_crowded :
    ∃ ws ws', ({} : Converter).convert .crowded = .ok ws ∧ ws.size = 13 ∧
      ({} : Converter).convert (EditorTree.crowded.pruned {}) = .ok ws' ∧ ws'.size = 9 ∧
      (({} : Compiler).compile ws).map Descriptor.message = .ok "on again %1" ∧
      ({} : Compiler).compile ws' = ({} : Compiler).compile ws := by
  have hchecked : ({} : Converter).convertIn .checked .crowded =
      .ok (({} : Converter).numbered EditorTree.crowded.blocks) := by decide +kernel
  obtain ⟨ws', hws', hsame⟩ := (compile_pruned {} {} .crowded).2 _ convert_crowded
  have hsize : ws'.size = 9 := by
    rw [(convertIn_eq_ok_iff.1 hws').2]
    decide +kernel
  exact ⟨_, ws', convert_crowded, by decide +kernel, hws', hsize, by decide +kernel,
    hsame fun _ => keepsTop_of_convertIn_checked hchecked⟩

end Converter

/-- A definition whose output type is a group of two.  The second member, in a slot of the
largest number there is, is disabled. -/
def EditorTree.crammed : EditorTree :=
  let number : Block := .mk { type := "type_number" } [] none
  let string : Block := .mk { type := "type_string", disabled := true } [] none
  let group : Block :=
    .mk { type := "type_group" } [("TYPE0", number), ("TYPE18446744073709551615", string)] none
  .ofBlocks
    [.mk { type := "factory_base", fields := .ofList [("CONNECTIONS", .text "LEFT")] }
      [("OUTPUTTYPE", group)] none]

/-- The disabled member hides the other one, where sums wrap around. -/
theorem Converter.compile_ne_pruned_crammed :
    ∃ ws ws', ({} : Converter).convert .crammed = .ok ws ∧
      ({} : Converter).convert (EditorTree.crammed.pruned {}) = .ok ws' ∧
      (({} : Compiler).compile ws).map Descriptor.output = .ok none ∧
      (({} : Compiler).compile ws').map Descriptor.output = .ok (some (.one "Number")) ∧
      ({} : Compiler).compile ws' ≠ ({} : Compiler).compile ws ∧
      ({} : Converter).convertIn .checked .crammed = .error .overflow := by
  have houtput : (({} : Compiler).compile
      (({} : Converter).numbered EditorTree.crammed.blocks)).map Descriptor.output =
        .ok none := by decide +kernel
  have houtput' : (({} : Compiler).compile
      (({} : Converter).numbered (EditorTree.crammed.pruned {}).blocks)).map Descriptor.output =
        .ok (some (.one "Number")) := by decide +kernel
  refine ⟨_, _, by decide +kernel, by decide +kernel, houtput, houtput', ?_, by decide +kernel⟩
  intro hsame
  rw [hsame, houtput] at houtput'
  cases houtput'

end BlockForge
