import BlockForge.Proofs.Pieces
import BlockForge.Proofs.Slots

/-!
Interpolation: which messages a block is made from, and what the block shows.

A block is made exactly when the numbers behind the percent signs of its message go
through the arguments, each once.  Read from left to right it then shows the arguments in
the order of the message, with a label for every run of text between them that is not
blank.
-/

namespace BlockForge

namespace Instance

open Message (Piece Token references)

/-- What stands at one place of a block: a field, or an input without the fields of its
row. -/
inductive Element where
  | field (field : InstanceField)
  | input (input : InstanceInput)
deriving DecidableEq

/-- The element that an argument describes. -/
def Element.ofArg : Arg → Element
  | .field arg => .field (fieldOfArg arg)
  | .input arg => .input (inputOfArg arg [])

/-- The element of an item: a label for a text that is not blank, or an argument by its
number. -/
def Element.ofItem? (args : List Arg) : Item Nat → Option Element
  | .text raw => if Text.allBlank raw then none else some (.field plainLabel)
  | .arg n => (args[n - 1]?).map Element.ofArg

/-- The elements of a row from left to right: its fields, and then its input. -/
def rowElements (row : InstanceInput) : List Element :=
  row.fields.map .field ++ [.input { row with fields := [] }]

/-- The dummy after the last element, when that is a field. -/
def closing (align : Align) (elements : List Element) : List Element :=
  match elements.getLast? with
  | some (.field _) => [.input ⟨none, .dummy, align, none, []⟩]
  | _ => []

/-- The element that a slot becomes. -/
def Slot.element : Slot → Element
  | .label => .field plainLabel
  | .arg a => .ofArg a

/-- An input closes what stands before it. -/
theorem closing_append_input (align : Align) (before after : List Element)
    (input : InstanceInput) :
    closing align (before ++ .input input :: after) = closing align after := by
  cases after with
  | nil => simp [closing]
  | cons element after => simp [closing, List.getLast?_append, List.getLast?_cons]

/-- Rows lose no slot and keep their order.  The fields read so far stand in front. -/
theorem flatMap_rowsFrom (align : Align) (row : List InstanceField) (slots : List Slot) :
    (rowsFrom align row slots).flatMap rowElements =
      (row.map .field ++ slots.map Slot.element) ++
        closing align (row.map .field ++ slots.map Slot.element) := by
  induction slots generalizing row with
  | nil =>
      cases List.eq_nil_or_concat row with
      | inl hnil =>
          subst hnil
          rfl
      | inr hlast =>
          obtain ⟨init, last, rfl⟩ := hlast
          simp [rowsFrom, rowElements, closing, List.concat_eq_append]
  | cons slot rest ih =>
      cases slot with
      | label =>
          rw [rowsFrom, ih]
          simp [Slot.element]
      | arg arg =>
          cases arg with
          | field arg =>
              rw [rowsFrom, ih]
              simp [Slot.element, Element.ofArg]
          | input arg =>
              rw [rowsFrom, List.flatMap_cons, ih, List.map_cons, Slot.element, Element.ofArg,
                closing_append_input]
              simp [rowElements, inputOfArg]

/-- The slots of an item show the item, when its number is not too large to be read. -/
theorem map_element_slots_item (args : List Arg) (item : Item Nat)
    (h : ∀ n ∈ item.arg?, n ≤ maxReference) :
    ((Message.itemTokens item).filterMap (slot? args)).map Slot.element =
      (Element.ofItem? args item).toList := by
  cases item with
  | text raw =>
      rw [Message.itemTokens, Item.runTokens, Element.ofItem?]
      by_cases hblank : Text.allBlank raw = true
      · have htrim := Text.allBlank_iff.1 hblank
        split <;> simp [slot?, htrim]
      · have htrim : Text.trim raw.toList ≠ [] := fun hnil => hblank (Text.allBlank_iff.2 hnil)
        have hne : raw.toList ≠ [] := by
          intro hnil
          rw [hnil] at htrim
          exact htrim rfl
        simp only [if_neg hne, if_neg hblank, List.filterMap_cons, slot?, if_neg htrim]
        rfl
  | arg n =>
      have hn : min n maxReference = n := Nat.min_eq_left (h n rfl)
      rw [Message.itemTokens, filterMap_cons_eq_append, slot?, hn, Element.ofItem?]
      cases args[n - 1]? <;> rfl

/-- The slots of items show the items, when no number is too large to be read. -/
theorem map_element_slots (args : List Arg) {items : List (Item Nat)}
    (h : ∀ n ∈ items.filterMap Item.arg?, n ≤ maxReference) :
    ((items.flatMap Message.itemTokens).filterMap (slot? args)).map Slot.element =
      items.filterMap (Element.ofItem? args) := by
  induction items with
  | nil => rfl
  | cons item items ih =>
      rw [filterMap_cons_eq_append] at h ⊢
      have hitem := map_element_slots_item args item fun n hn =>
        h n (List.mem_append_left _ (Option.mem_toList.2 hn))
      rw [List.flatMap_cons, List.filterMap_append, List.map_append, hitem,
        ih fun n hn => h n (List.mem_append_right _ hn)]

/-- The numbers that the tokens of items refer to. -/
theorem references_itemTokens (items : List (Item Nat)) :
    references (items.flatMap Message.itemTokens) =
      (items.filterMap Item.arg?).map (min · maxReference) := by
  induction items with
  | nil => rfl
  | cons item items ih =>
      rw [List.flatMap_cons]
      cases item with
      | text raw =>
          rw [Message.itemTokens, Message.references_runTokens_append]
          exact ih
      | arg n => exact congrArg (min n maxReference :: ·) ih

/-- The largest number that can be read is none of the numbers up to `n`, so it does not
matter that larger ones count as this one. -/
theorem perm_map_min_iff {n : Nat} (hn : n < maxReference) {numbers : List Nat} :
    (numbers.map (min · maxReference)).Perm (List.range' 1 n) ↔
      numbers.Perm (List.range' 1 n) := by
  have hself (h : ∀ k ∈ numbers, k ≤ n) : numbers.map (min · maxReference) = numbers := by
    have hmin : ∀ k ∈ numbers, min k maxReference = id k := fun k hk =>
      Nat.min_eq_left (Nat.le_of_lt (Nat.lt_of_le_of_lt (h k hk) hn))
    rw [List.map_congr_left hmin, List.map_id]
  constructor
  · intro h
    rwa [hself] at h
    intro k hk
    have hrange := List.mem_range'_1.1 (h.mem_iff.1 (List.mem_map_of_mem hk))
    omega
  · intro h
    rwa [hself]
    intro k hk
    have hrange := List.mem_range'_1.1 (h.mem_iff.1 hk)
    omega

/-- The arguments after some others, by their numbers. -/
theorem filterMap_range' (before after : List Arg) :
    (List.range' (before.length + 1) after.length).filterMap
      (fun k => (before ++ after)[k - 1]?) = after := by
  induction after generalizing before with
  | nil => rfl
  | cons arg after ih =>
      have hrest := ih (before ++ [arg])
      rw [List.length_append, List.length_singleton, List.append_assoc,
        List.singleton_append] at hrest
      rw [List.length_cons, List.range'_succ, filterMap_cons_eq_append, hrest]
      simp

/-- What a block shows of the pieces of a message. -/
structure Interpolates (d : Descriptor) (pieces : List Piece) (block : Instance) : Prop where
  blockType : block.blockType = d.blockType
  connections : block.connections = d.connections
  args : ((pieces.filterMap Piece.number?).filterMap fun n => d.args[n - 1]?).Perm d.args
  inputs : block.inputs.flatMap rowElements =
    (Message.itemsFrom [] pieces).filterMap (Element.ofItem? d.args) ++
      closing (d.lastDummyAlign.getD .left)
        ((Message.itemsFrom [] pieces).filterMap (Element.ofItem? d.args))

/-- The references of a message that is cut into pieces. -/
theorem references_of_cut {message : String} {pieces : List Piece}
    (h : Message.Cut message.toList pieces) :
    references (Message.tokens message) =
      (pieces.filterMap Piece.number?).map (min · maxReference) := by
  rw [h.tokens_eq, references_itemTokens, Message.filterMap_arg?_itemsFrom]

/-- The references of a message go through the arguments exactly when the numbers in it
do. -/
theorem covers_references_iff {d : Descriptor} (hargs : d.args.length < Word.maxUnsigned)
    {pieces : List Piece} (hcut : Message.Cut d.message.toList pieces) :
    Covers d.args.length [] (references (Message.tokens d.message)) ↔
      (pieces.filterMap Piece.number?).Perm (List.range' 1 d.args.length) := by
  rw [covers_iff_perm, references_of_cut hcut, perm_map_min_iff hargs]

theorem ofDescriptor_eq_ok_iff {d : Descriptor} {block : Instance} :
    ofDescriptor d = .ok block ↔ ∃ slots,
      slotsFrom d.args [] (Message.tokens d.message) = .ok slots ∧
      { blockType := d.blockType
        inputs := rowsFrom (d.lastDummyAlign.getD .left) [] slots
        connections := d.connections } = block := by
  rw [ofDescriptor, except_bind_eq_ok_iff]
  simp [pure, Except.pure]

/-- A block shows the pieces of the message it is made from. -/
theorem interpolates_of_ofDescriptor {d : Descriptor} (hargs : d.args.length < Word.maxUnsigned)
    {pieces : List Piece} (hcut : Message.Cut d.message.toList pieces) {block : Instance}
    (h : ofDescriptor d = .ok block) : Interpolates d pieces block := by
  obtain ⟨slots, hslots, rfl⟩ := ofDescriptor_eq_ok_iff.1 h
  obtain ⟨hcovers, rfl⟩ := slotsFrom_eq_ok_iff.1 hslots
  have hperm := (covers_references_iff hargs hcut).1 hcovers
  have hsmall : ∀ n ∈ (Message.itemsFrom [] pieces).filterMap Item.arg?, n ≤ maxReference := by
    intro n hn
    rw [Message.filterMap_arg?_itemsFrom] at hn
    have hrange := List.mem_range'_1.1 (hperm.mem_iff.1 hn)
    have hmax : maxReference = Word.maxUnsigned := rfl
    omega
  have helements := map_element_slots d.args hsmall
  exact
    { blockType := rfl
      connections := rfl
      args := by
        have hall := filterMap_range' [] d.args
        exact (hperm.filterMap _).trans (.of_eq hall)
      inputs := by
        rw [flatMap_rowsFrom, hcut.tokens_eq, helements, List.map_nil, List.nil_append] }

/-- A message makes a block exactly when the numbers it refers to are those of the
arguments in some order, and then nothing is lost: from left to right the block shows the
arguments and the runs of text as they stand in the message.  What follows the last input
is closed by a dummy. -/
theorem ofDescriptor_of_cut (d : Descriptor) (hargs : d.args.length < Word.maxUnsigned) :
    (∃ pieces, Message.Cut d.message.toList pieces) ∧
      (∀ e, ofDescriptor d = .error e → ∃ reason, e = .invalidSchema reason) ∧
      ∀ pieces, Message.Cut d.message.toList pieces →
        ((∃ block, ofDescriptor d = .ok block) ↔
          (pieces.filterMap Piece.number?).Perm (List.range' 1 d.args.length)) ∧
        ∀ block, ofDescriptor d = .ok block → Interpolates d pieces block := by
  refine ⟨Message.exists_cut _, ?_, ?_⟩
  · intro e h
    rw [ofDescriptor, except_bind_eq_error_iff] at h
    rcases h with h | ⟨_, _, h⟩
    · exact exists_reason_of_slotsFrom h
    · cases h
  · intro pieces hcut
    refine ⟨?_, fun block h => interpolates_of_ofDescriptor hargs hcut h⟩
    rw [← covers_references_iff hargs hcut]
    constructor
    · rintro ⟨block, h⟩
      obtain ⟨slots, hslots, _⟩ := ofDescriptor_eq_ok_iff.1 h
      exact (slotsFrom_eq_ok_iff.1 hslots).1
    · intro h
      exact ⟨_, ofDescriptor_eq_ok_iff.2 ⟨_, slotsFrom_eq_ok_iff.2 ⟨h, rfl⟩, rfl⟩⟩

/-- A message that refers to the second argument first, writes a number with a zero in
front, and ends with a percent sign that stands for itself. -/
def shuffledMessage : Descriptor where
  blockType := "dial"
  lastDummyAlign := some .right
  message := "%02%%1 and %1 %"
  args := [.input ⟨.value, some "A", none, .centre⟩, .field (.text "N" "x")]

/-- The pieces of `shuffledMessage`. -/
def shuffledPieces : List Piece :=
  [.reference ['0', '2'], .pair, .plain '1', .plain ' ', .plain 'a', .plain 'n', .plain 'd',
    .plain ' ', .reference ['1'], .plain ' ', .percent]

theorem cut_shuffledMessage : Message.Cut shuffledMessage.message.toList shuffledPieces := by
  have hend : Message.Cut [' ', '%'] [.plain ' ', .percent] :=
    .plain (by decide) (.percent nofun .nil)
  have hlast : Message.Cut ('%' :: (['1'] ++ [' ', '%'])) (.reference ['1'] :: _) :=
    .reference (by decide) (by simp) (by simp) hend
  have hand : Message.Cut (['1', ' ', 'a', 'n', 'd', ' '] ++ '%' :: (['1'] ++ [' ', '%'])) _ :=
    .plain (by decide) (.plain (by decide) (.plain (by decide) (.plain (by decide)
      (.plain (by decide) (.plain (by decide) hlast)))))
  have hall : Message.Cut ('%' :: (['0', '2'] ++ '%' :: '%' :: _))
      (.reference ['0', '2'] :: .pair :: _) :=
    .reference (by decide) (by simp) (by simp) (.pair hand)
  exact hall

theorem ofDescriptor_of_cut_shuffledMessage :
    shuffledMessage.args.length < Word.maxUnsigned ∧
      Message.Cut shuffledMessage.message.toList shuffledPieces ∧
      ∃ block, ofDescriptor shuffledMessage = .ok block ∧
        block.inputs.flatMap rowElements =
          [.field ⟨some "N", .textInput⟩, .field plainLabel,
            .input ⟨some "A", .value, .centre, none, []⟩, .field plainLabel,
            .input ⟨none, .dummy, .right, none, []⟩] := by
  have hargs : shuffledMessage.args.length < Word.maxUnsigned := by decide
  obtain ⟨_, _, hall⟩ := ofDescriptor_of_cut shuffledMessage hargs
  obtain ⟨hok, hshows⟩ := hall shuffledPieces cut_shuffledMessage
  obtain ⟨block, hblock⟩ := hok.2 (by decide)
  refine ⟨hargs, cut_shuffledMessage, block, hblock, ?_⟩
  rw [(hshows block hblock).inputs]
  decide +kernel

end Instance

end BlockForge
