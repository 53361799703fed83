import BlockForge.Definition.Token
import BlockForge.Proofs.Members
import BlockForge.Proofs.Placement
import Mathlib.Data.List.Nodup
import Mathlib.Data.List.Perm.Subperm

/-!
Blocks that do not declare how many parts they have.

A dropdown has the options from number zero on, up to the first number of which neither
half is there; there is such a number, because a table holds only so many keys.  A type
group has members up to the largest number among its slots.  `typeNamesTraced` resolves a
type tree and records which slots it comes by: of the slots of such a group these are the
ones that are named `TYPE` and a numeral, each once, in the order of their numbers.
-/

namespace BlockForge

/-- A key that ends in a number tells the number. -/
theorem numberedKey_inj {lead : String} {i j : Nat}
    (h : lead ++ toString i = lead ++ toString j) : i = j := by
  have hlist := congrArg String.toList h
  rw [String.toList_append, String.toList_append] at hlist
  have hdigits (n : Nat) : digitsValue (toString n).toList = n := by
    rw [Nat.toString_eq_repr, Nat.toList_repr]
    exact digitsValue_toDigits n
  rw [← hdigits i, ← hdigits j, List.append_cancel_left hlist]

theorem shownKey_ne_codeKey (i j : Nat) : shownKey i ≠ codeKey j := by
  intro h
  have hlist := congrArg String.toList h
  rw [shownKey, codeKey, String.toList_append, String.toList_append] at hlist
  exact absurd (List.cons.inj hlist).1 (by decide)

section Options

variable {α : Type} {fields : Table α}

/-- At least one half of an option is there. -/
def HasOption (fields : Table α) (i : Nat) : Prop :=
  fields.contains (shownKey i) = true ∨ fields.contains (codeKey i) = true

/-- The key of the half of an option that is there. -/
def optionKey (fields : Table α) (i : Nat) : String :=
  if fields.contains (shownKey i) then shownKey i else codeKey i

theorem optionKey_inj {i j : Nat} (h : optionKey fields i = optionKey fields j) : i = j := by
  unfold optionKey at h
  split at h <;> split at h
  · exact numberedKey_inj h
  · exact absurd h (shownKey_ne_codeKey i j)
  · exact absurd h.symm (shownKey_ne_codeKey j i)
  · exact numberedKey_inj h

theorem optionKey_mem_keys {i : Nat} (h : HasOption fields i) :
    optionKey fields i ∈ fields.keys := by
  rw [Table.mem_keys_iff, optionKey]
  split
  next hshown => exact hshown
  next hshown => exact h.resolve_left hshown

/-- Every option takes up a key, so one of the first numbers has none. -/
theorem exists_not_hasOption (fields : Table α) : ∃ i < fields.size + 1, ¬ HasOption fields i := by
  by_contra hall
  push Not at hall
  have hnodup : ((List.range (fields.size + 1)).map (optionKey fields)).Nodup :=
    List.nodup_range.map fun _ _ => optionKey_inj
  have hsubset : (List.range (fields.size + 1)).map (optionKey fields) ⊆ fields.keys := by
    intro key hkey
    obtain ⟨i, hi, rfl⟩ := List.mem_map.1 hkey
    exact optionKey_mem_keys (hall i (List.mem_range.1 hi))
  have hlength := (List.subperm_of_subset hnodup hsubset).length_le
  rw [List.length_map, List.length_range, Table.keys, List.length_map, ← Table.size] at hlength
  exact Nat.not_succ_le_self _ hlength

/-- The options that are counted are there, and the first one after them is not. -/
theorem optionCount_spec (fields : Table α) :
    (∀ i < optionCount fields, HasOption fields i) ∧ ¬ HasOption fields (optionCount fields) := by
  have hhas (i : Nat) : (fields.contains (shownKey i) || fields.contains (codeKey i)) = true ↔
      HasOption fields i := Bool.or_eq_true_iff
  rw [optionCount]
  cases hfind : (List.range (fields.size + 1)).find? fun i =>
      !(fields.contains (shownKey i) || fields.contains (codeKey i)) with
  | none =>
      obtain ⟨i, hi, hmissing⟩ := exists_not_hasOption fields
      have hthere := List.find?_range_eq_none.1 hfind i hi
      rw [Bool.not_not, hhas] at hthere
      exact absurd hthere hmissing
  | some k =>
      obtain ⟨hmissing, -, hthere⟩ := List.find?_range_eq_some.1 hfind
      rw [Option.getD_some]
      refine ⟨fun i hi => ?_, ?_⟩
      · have hi := hthere i hi
        rwa [Bool.not_not, hhas] at hi
      · rwa [Bool.not_eq_true', Bool.eq_false_iff, Ne, hhas] at hmissing

end Options

/-- The text of a field, which is empty if the field is not there. -/
def Block.fieldText (block : Block) (name : String) : String :=
  ((block.data.fields.get? name).bind scalarText?).getD ""

/-- A node offers the options of a dropdown from number zero on, up to the first one of
which neither half is there.  If that is the very first, it is no field at all. -/
def Block.OffersOptions (block : Block) (node : Node) : Prop :=
  ∃ k, (∀ i < k, HasOption block.data.fields i) ∧ ¬ HasOption block.data.fields k ∧
    node.token? =
      if k = 0 then none
      else
        some (.field (.dropdown (block.fieldText "FIELDNAME") ((List.range k).map fun i =>
          (block.fieldText (shownKey i), block.fieldText (codeKey i)))))

theorem Converter.text_look (c : Converter) (block : Block) (name : String) :
    (c.look block).text name = block.fieldText name := by
  change ((block.data.fields.map fun value => (scalarText? value).getD "").get? name).getD "" = _
  rw [Table.get?_map, Block.fieldText]
  cases block.data.fields.get? name <;> rfl

theorem Converter.offersOptions_look {c : Converter} {block : Block}
    (hkind : (c.look block).kind = .dropdownField) (hcount : block.data.itemCount = none) :
    block.OffersOptions (c.look block) := by
  have hitems : (c.look block).itemCount = optionCount block.data.fields := by
    rw [itemCount_look, hcount, ← kind_look, hkind]
    rfl
  have hoptions : (c.look block).options = (List.range (optionCount block.data.fields)).map
      fun i => (block.fieldText (shownKey i), block.fieldText (codeKey i)) := by
    rw [Node.options, hitems]
    exact List.map_congr_left fun i _ => by rw [text_look, text_look]
  have hempty : (c.look block).options.isEmpty = true ↔ optionCount block.data.fields = 0 := by
    rw [hoptions, List.isEmpty_iff, List.map_eq_nil_iff, List.range_eq_nil]
  obtain ⟨hthere, hmissing⟩ := optionCount_spec block.data.fields
  refine ⟨_, hthere, hmissing, ?_⟩
  rw [Node.token?, hkind]
  dsimp only
  rw [← hoptions, ← text_look c block "FIELDNAME"]
  simp only [hempty]

theorem flatMap_ite_singleton {α β : Type} (p : α → Bool) (f : α → β) (as : List α) :
    (as.flatMap fun a => if p a then [f a] else []) = (as.filter p).map f := by
  induction as with
  | nil => rfl
  | cons a as ih => by_cases ha : p a <;> simp [ha, ih]

/-- Go through steps in their order up to the first failure, and put together what was
recorded on the way. -/
def visitEach {ε α β : Type} (f : Nat → Except ε α × List β) :
    List Nat → Except ε (List α) × List β
  | [] => (.ok [], [])
  | i :: rest =>
      match f i with
      | (.error e, visited) => (.error e, visited)
      | (.ok a, visited) =>
          let others := visitEach f rest
          (others.1.map fun as => a :: as, visited ++ others.2)

section VisitEach

variable {ε α β : Type} {f : Nat → Except ε α × List β} {is : List Nat}

theorem visitEach_fst (f : Nat → Except ε α × List β) (is : List Nat) :
    (visitEach f is).1 = is.mapM fun i => (f i).1 := by
  induction is with
  | nil => rfl
  | cons i rest ih =>
      rw [visitEach, List.mapM_cons, ← ih]
      rcases f i with ⟨_ | a, visited⟩
      · rfl
      · dsimp only
        cases (visitEach f rest).1 <;> rfl

theorem exists_of_mem_visitEach {b : β} (h : b ∈ (visitEach f is).2) :
    ∃ i ∈ is, b ∈ (f i).2 := by
  induction is with
  | nil => cases h
  | cons i rest ih =>
      rw [visitEach] at h
      rcases hstep : f i with ⟨_ | a, visited⟩
      · rw [hstep] at h
        exact ⟨i, List.mem_cons_self, by rwa [hstep]⟩
      · rw [hstep] at h
        rcases List.mem_append.1 h with hfirst | hothers
        · exact ⟨i, List.mem_cons_self, by rwa [hstep]⟩
        · obtain ⟨j, hj, hvisited⟩ := ih hothers
          exact ⟨j, List.mem_cons_of_mem i hj, hvisited⟩

/-- Of what is of interest, the steps record what they should up to the first failure, and
everything if there is none. -/
theorem filter_visitEach {p : β → Bool} {due : Nat → List β}
    (h : ∀ i ∈ is, (f i).2.filter p = due i) :
    (visitEach f is).2.filter p <+: is.flatMap due ∧
      ∀ as, (visitEach f is).1 = .ok as → (visitEach f is).2.filter p = is.flatMap due := by
  induction is with
  | nil => exact ⟨List.prefix_rfl, fun _ _ => rfl⟩
  | cons i rest ih =>
      obtain ⟨hfirst, hothers⟩ := List.forall_mem_cons.1 h
      obtain ⟨hinitial, hall⟩ := ih hothers
      rw [visitEach, List.flatMap_cons, ← hfirst]
      rcases f i with ⟨_ | a, visited⟩
      · exact ⟨List.prefix_append _ _, fun _ hfailed => nomatch hfailed⟩
      · dsimp only
        rw [List.filter_append]
        refine ⟨List.prefix_append_right_inj _ |>.2 hinitial, fun as has => ?_⟩
        obtain ⟨others, hothers⟩ := exists_map_eq_ok_iff.1 ⟨as, has⟩
        rw [hall others hothers]

end VisitEach

namespace Workspace

/-- The names that the tree in a slot stands for, down to so many groups, and the occupied
slots that are looked into, in their order. -/
def typeNamesTraced (ws : Workspace) :
    Nat → NodeId → String → Except GenerationError (List String) × List (NodeId × String)
  | 0, _, _ => (.ok [], [])
  | depth + 1, owner, slot =>
      match ws.slot? owner slot with
      | none => (.ok [], [])
      | some child =>
          if ws.isEnabled owner && ws.isEnabled child then
            match ws.node? child with
            | none => (.ok [], [(owner, slot)])
            | some node =>
                if node.kind = .typeGroup then
                  let members := visitEach
                    (fun i => ws.typeNamesTraced depth child (memberSlot i))
                    (List.range node.itemCount)
                  (members.1.map fun names => names.flatten.eraseDups, (owner, slot) :: members.2)
                else (node.typeNames, [(owner, slot)])
          else (.ok [], [(owner, slot)])

variable {ws : Workspace} {rank : NodeId → Nat} {id owner child : NodeId} {slot : String}

/-- Recording does not change what is found. -/
theorem typeNamesTraced_fst (ws : Workspace) (depth : Nat) (owner : NodeId) (slot : String) :
    (ws.typeNamesTraced depth owner slot).1 = ws.typeNamesWithin depth owner slot := by
  induction depth generalizing owner slot with
  | zero => rfl
  | succ depth ih =>
      rw [typeNamesTraced, typeNamesWithin_succ, typeNamesStep]
      rcases ws.slot? owner slot with _ | child
      · rfl
      · dsimp only
        split
        next =>
          rcases ws.node? child with _ | node
          · rfl
          · dsimp only
            split
            next hkind =>
              rw [Node.namesWith_of_group hkind, visitEach_fst]
              simp only [ih]
              cases (List.range node.itemCount).mapM fun i =>
                ws.typeNamesWithin depth child (memberSlot i) <;> rfl
            next hkind => rw [Node.namesWith_of_not_group hkind]
        next => rfl

theorem typeNamesTraced_of_slot_eq_none (depth : Nat) (hslot : ws.slot? owner slot = none) :
    ws.typeNamesTraced depth owner slot = (.ok [], []) := by
  cases depth with
  | zero => rfl
  | succ depth => rw [typeNamesTraced, hslot]

/-- Of an occupied slot the slot itself is recorded first, and then what is recorded of
members of its occupant. -/
theorem exists_typeNamesTraced_snd (depth : Nat) (hslot : ws.slot? owner slot = some child) :
    ∃ below, (ws.typeNamesTraced (depth + 1) owner slot).2 = (owner, slot) :: below ∧
      ∀ v ∈ below, ∃ i, v ∈ (ws.typeNamesTraced depth child (memberSlot i)).2 := by
  have hnone : ∀ v ∈ ([] : List (NodeId × String)),
      ∃ i, v ∈ (ws.typeNamesTraced depth child (memberSlot i)).2 :=
    fun v hv => absurd hv List.not_mem_nil
  rw [typeNamesTraced, hslot]
  dsimp only
  split
  next =>
    rcases ws.node? child with _ | node
    · exact ⟨[], rfl, hnone⟩
    · dsimp only
      split
      next =>
        refine ⟨_, rfl, fun v hv => ?_⟩
        obtain ⟨i, _, hv⟩ := exists_of_mem_visitEach hv
        exact ⟨i, hv⟩
      next => exact ⟨[], rfl, hnone⟩
  next => exact ⟨[], rfl, hnone⟩

/-- The slots that are recorded are slots of the owner and of nodes of higher rank. -/
theorem Graded.le_rank_of_mem_traced (h : ws.Graded rank) {depth : Nat} {v : NodeId × String}
    (hv : v ∈ (ws.typeNamesTraced depth owner slot).2) : rank owner ≤ rank v.1 := by
  induction depth generalizing owner slot with
  | zero => cases hv
  | succ depth ih =>
      rcases hslot : ws.slot? owner slot with _ | child
      · rw [typeNamesTraced_of_slot_eq_none _ hslot] at hv
        cases hv
      · obtain ⟨below, hsnd, hbelow⟩ := exists_typeNamesTraced_snd depth hslot
        rw [hsnd] at hv
        rcases List.mem_cons.1 hv with rfl | hv
        · exact Nat.le_refl _
        · obtain ⟨i, hv⟩ := hbelow v hv
          exact Nat.le_trans (Nat.le_of_lt (h.slot owner slot child hslot).2) (ih hv)

/-- Of the slots of its owner, the walk into a slot records the slot itself alone. -/
theorem Graded.filter_traced (h : ws.Graded rank) (depth : Nat) (owner : NodeId) (slot : String) :
    (ws.typeNamesTraced (depth + 1) owner slot).2.filter (fun v => v.1 == owner) =
      if (ws.slot? owner slot).isSome then [(owner, slot)] else [] := by
  rcases hslot : ws.slot? owner slot with _ | child
  · rw [typeNamesTraced_of_slot_eq_none _ hslot]
    rfl
  · obtain ⟨below, hsnd, hbelow⟩ := exists_typeNamesTraced_snd depth hslot
    have hother : below.filter (fun v => v.1 == owner) = [] := by
      refine List.filter_eq_nil_iff.2 fun v hv => ?_
      obtain ⟨i, hv⟩ := hbelow v hv
      have hrank := Nat.lt_of_lt_of_le (h.slot owner slot child hslot).2
        (h.le_rank_of_mem_traced hv)
      rw [beq_iff_eq]
      rintro rfl
      exact Nat.lt_irrefl _ hrank
    rw [hsnd, List.filter_cons, if_pos (beq_self_eq_true owner), hother]
    rfl

/-- The walk into a slot that a group occupies goes through the group's members. -/
theorem typeNamesTraced_of_group {node : Node} (hslot : ws.slot? owner slot = some id)
    (howner : ws.isEnabled owner = true) (hid : ws.isEnabled id = true)
    (hnode : ws.node? id = some node) (hkind : node.kind = .typeGroup) (depth : Nat) :
    (ws.typeNamesTraced (depth + 1) owner slot).2 =
      (owner, slot) :: (visitEach (fun i => ws.typeNamesTraced depth id (memberSlot i))
        (List.range node.itemCount)).2 ∧
    (ws.typeNamesTraced (depth + 1) owner slot).1 =
      (visitEach (fun i => ws.typeNamesTraced depth id (memberSlot i))
        (List.range node.itemCount)).1.map fun names => names.flatten.eraseDups := by
  rw [typeNamesTraced, hslot]
  dsimp only
  rw [howner, hid, Bool.and_true, if_pos rfl, hnode]
  dsimp only
  rw [if_pos hkind]
  exact ⟨rfl, rfl⟩

/-- Whenever a group is resolved, as deep as its tree goes, the occupied slots of it that
are looked into are its member slots with the given numbers, in their order and each once,
unless one of them is the first failure, after which no other one is looked into.  The
names of the group are those found in these slots. -/
def WalksMembers (ws : Workspace) (id : NodeId) (numbers : List Nat) : Prop :=
  ∀ depth owner slot, ws.size ≤ depth + owner → ws.slot? owner slot = some id →
    ws.isEnabled owner = true → ws.isEnabled id = true →
      let walk := ws.typeNamesTraced depth owner slot
      let visited := walk.2.filter fun v => v.1 == id
      let due := numbers.map fun i => (id, memberSlot i)
      visited <+: due ∧ (∀ names, walk.1 = .ok names → visited = due) ∧
        walk.1 = ws.typeNamesWithin depth owner slot ∧
        walk.1 = (numbers.mapM fun i => ws.typeNamesWithin ws.size id (memberSlot i)).map
          fun names => names.flatten.eraseDups

/-- A group walks through those of its member slots that are occupied and counted. -/
theorem Graded.walksMembers (h : ws.Graded fun id => id) {node : Node}
    (hnode : ws.node? id = some node) (hkind : node.kind = .typeGroup) :
    ws.WalksMembers id
      ((List.range node.itemCount).filter fun i => (ws.slot? id (memberSlot i)).isSome) := by
  intro depth owner slot hdepth hslot howner hid
  obtain ⟨hlt, hrank⟩ := h.slot owner slot id hslot
  have htwo : 2 ≤ depth := by
    have hsize : ws.size > id := hlt
    omega
  obtain ⟨depth, rfl⟩ := Nat.exists_eq_add_of_le' htwo
  obtain ⟨hsnd, hfst⟩ := typeNamesTraced_of_group hslot howner hid hnode hkind (depth + 1)
  have hvisited : ∀ i ∈ List.range node.itemCount, _ :=
    fun i _ => h.filter_traced depth id (memberSlot i)
  obtain ⟨hinitial, hall⟩ := filter_visitEach hvisited
  rw [flatMap_ite_singleton] at hinitial hall
  have howner_ne : ¬ (owner == id) = true := by
    rw [beq_iff_eq]
    exact Nat.ne_of_lt hrank
  dsimp only
  rw [hsnd, List.filter_cons, if_neg howner_ne]
  refine ⟨hinitial, ?_, typeNamesTraced_fst ws _ owner slot, ?_⟩
  · intro names hnames
    rw [hfst] at hnames
    obtain ⟨members, hmembers⟩ := exists_map_eq_ok_iff.1 ⟨names, hnames⟩
    exact hall members hmembers
  · have hfound : ws.typeNamesWithin (depth + 1 + 1) owner slot =
        node.namesWith (ws.typeNamesWithin ws.size id) := by
      rw [h.typeNamesWithin_eq slot hdepth (Nat.le_add_right ws.size owner),
        h.typeNamesWithin_size, typeNamesStep, hslot]
      dsimp only
      rw [howner, hid, Bool.and_true, if_pos rfl, hnode]
    have hempty : ∀ i ∈ List.range node.itemCount, (ws.slot? id (memberSlot i)).isSome = false →
        ws.typeNamesWithin ws.size id (memberSlot i) = .ok [] := by
      intro i _ hfree
      rw [Option.isSome_eq_false_iff, Option.isNone_iff_eq_none] at hfree
      exact typeNamesWithin_of_slot_eq_none ws.size hfree
    have hcompose (found : Except GenerationError (List (List String))) :
        (found.map List.flatten).map List.eraseDups =
          found.map fun names => names.flatten.eraseDups := by
      cases found <;> rfl
    rw [typeNamesTraced_fst, hfound, Node.namesWith_of_group hkind, ← flatten_mapM_filter hempty]
    exact hcompose _

end Workspace

/-- The occupied slots of a converted block are the slots of the block. -/
theorem Converter.Heads.isSome_slot?_iff {c : Converter} {ws : Workspace}
    {parent prev : Option NodeId} {id : NodeId} {block : Block}
    (h : c.Heads ws parent prev id block) (name : String) :
    (ws.slot? id name).isSome = true ↔ name ∈ block.slots.map Prod.fst := by
  have hrel := h.slot_rel name
  have hkeys : name ∈ block.slots.map Prod.fst ↔ (block.slot? name).isSome = true := by
    cases block
    exact Table.mem_keys_iff (t := ⟨_, h.ordered.1⟩)
  rw [hkeys]
  generalize ws.slot? id name = head at hrel ⊢
  generalize block.slot? name = child at hrel ⊢
  cases hrel <;> exact Iff.rfl

/-- The inferred number of parts loses none.  A dropdown offers all options from number zero
on up to the first one that is missing.  A type group, none of whose slots has a number as
large as the largest word, walks through its slots named `TYPE` and a numeral, each once and
in the order of their numbers, and into no other occupied slot. -/
theorem Converter.inferredParts_complete {c : Converter} {tree : EditorTree} {ws : Workspace}
    (h : c.convert tree = .ok ws) {id : NodeId} {block : Block}
    (hblock : tree.all[id]? = some block) (hcount : block.data.itemCount = none) :
    ∃ node, ws.node? id = some node ∧
      (node.kind = .dropdownField → block.OffersOptions node) ∧
      (node.kind = .typeGroup →
        (∀ e ∈ block.slots, ∀ n, slotNumber? e.1 = some n → n < Word.maxUnsigned) →
          ∃ numbers : List Nat, numbers.Pairwise (· < ·) ∧
            (∀ i, i ∈ numbers ↔ memberSlot i ∈ block.slots.map Prod.fst) ∧
            ws.WalksMembers id numbers) := by
  obtain ⟨parent, prev, hheads⟩ := heads_of_convert h hblock
  refine ⟨_, hheads.node?, fun hkind => c.offersOptions_look hkind hcount, ?_⟩
  intro hkind hbound
  have hitems : (c.look block).itemCount = memberCount (block.slots.map Prod.fst) := by
    rw [itemCount_look, hcount, ← kind_look, show (c.look block).kind = .typeGroup from hkind]
    rfl
  have hfits : ¬ Wraps (block.slots.map Prod.fst) := by
    rintro ⟨slot, hslot, hnumber⟩
    obtain ⟨e, he, rfl⟩ := List.mem_map.1 hslot
    exact absurd (hbound e he _ (slotNumber?_of_typeIndex? hnumber)) (Nat.lt_irrefl _)
  refine ⟨_, List.pairwise_lt_range.filter _, fun i => ?_,
    (placed_of_convert h).graded.walksMembers hheads.node? hkind⟩
  rw [List.mem_filter, List.mem_range, hheads.isSome_slot?_iff, and_iff_right_iff_imp]
  intro hslot
  obtain ⟨e, he, hname⟩ := List.mem_map.1 hslot
  have hlt := hbound e he i (hname ▸ slotNumber?_memberSlot i)
  exact lt_of_lt_of_eq (lt_memberCount_of_le hfits hslot (Nat.le_of_lt hlt)) hitems.symm

/-- A definition whose output type is a group with gaps between its members and with slots
that are no member slots, and a dropdown with a half option and with another one after a
gap. -/
def EditorTree.gapped : EditorTree :=
  let type (name : String) : Block := .mk { type := name } [] none
  let group : Block :=
    .mk { type := "type_group" }
      [("TYPE0", type "type_number"), ("TYPE2", type "type_string"),
        ("TYPE10", type "type_boolean"), ("TYPE01", type "type_list"),
        ("TYPE+1", type "type_list"), ("TYPEX", type "type_list")] none
  let dropdown : Block :=
    .mk
      { type := "field_dropdown"
        fields := .ofList
          [("FIELDNAME", .text "D"), ("USER0", .text "zero"), ("CPU0", .text "0"),
            ("CPU1", .text "1"), ("USER3", .text "three")] } [] none
  .ofBlocks [.mk { type := "factory_base" } [("OUTPUTTYPE", group)] none, dropdown]

theorem Converter.inferredParts_complete_gapped :
    ∃ ws, ({} : Converter).convert .gapped = .ok ws ∧
      (∃ node, ws.node? 8 = some node ∧ node.kind = .dropdownField ∧
        node.token? = some (.field (.dropdown "D" [("zero", "0"), ("", "1")])) ∧
        (EditorTree.gapped.all.get ⟨8, by decide +kernel⟩).OffersOptions node) ∧
      ws.typeNamesTraced ws.size 0 "OUTPUTTYPE" =
        (.ok ["\"Number\"", "\"String\"", "\"Boolean\""],
          [(0, "OUTPUTTYPE"), (1, "TYPE0"), (1, "TYPE2"), (1, "TYPE10")]) ∧
      ∃ numbers : List Nat, numbers.Pairwise (· < ·) ∧
        (∀ i, i ∈ numbers ↔
          memberSlot i ∈ ["TYPE+1", "TYPE0", "TYPE01", "TYPE10", "TYPE2", "TYPEX"]) ∧
        ws.WalksMembers 1 numbers := by
  have hconvert : ({} : Converter).convert .gapped =
      .ok (({} : Converter).numbered EditorTree.gapped.blocks) := by decide +kernel
  have hget (i : Nat) (hi : i < EditorTree.gapped.all.length) :
      EditorTree.gapped.all[i]? = some (EditorTree.gapped.all.get ⟨i, hi⟩) :=
    List.getElem?_eq_getElem hi
  obtain ⟨dropdown, hdropdown, hoptions, -⟩ :=
    inferredParts_complete hconvert (hget 8 (by decide +kernel)) (by decide +kernel)
  obtain ⟨group, hgroup, -, hmembers⟩ :=
    inferredParts_complete hconvert (hget 1 (by decide +kernel)) (by decide +kernel)
  have hslots : (EditorTree.gapped.all.get ⟨1, by decide +kernel⟩).slots.map Prod.fst =
      ["TYPE+1", "TYPE0", "TYPE01", "TYPE10", "TYPE2", "TYPEX"] := by decide +kernel
  have hbound : ∀ e ∈ (EditorTree.gapped.all.get ⟨1, by decide +kernel⟩).slots,
      ∀ n ∈ slotNumber? e.1, n < Word.maxUnsigned := by decide +kernel
  have hkind : dropdown.kind = .dropdownField := by
    have hkind : ((({} : Converter).numbered EditorTree.gapped.blocks).node? 8).map Node.kind =
        some .dropdownField := by decide +kernel
    rw [hdropdown] at hkind
    exact Option.some.inj hkind
  have htoken : dropdown.token? = some (.field (.dropdown "D" [("zero", "0"), ("", "1")])) := by
    have htoken : ((({} : Converter).numbered EditorTree.gapped.blocks).node? 8).bind Node.token? =
        some (.field (.dropdown "D" [("zero", "0"), ("", "1")])) := by decide +kernel
    rw [hdropdown] at htoken
    exact htoken
  have hgroupKind : group.kind = .typeGroup := by
    have hkind : ((({} : Converter).numbered EditorTree.gapped.blocks).node? 1).map Node.kind =
        some .typeGroup := by decide +kernel
    rw [hgroup] at hkind
    exact Option.some.inj hkind
  rw [hslots] at hmembers
  exact ⟨_, hconvert, ⟨dropdown, hdropdown, hkind, htoken, hoptions hkind⟩, by decide +kernel,
    hmembers hgroupKind hbound⟩

end BlockForge
