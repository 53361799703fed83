import BlockForge.Proofs.Message

/-!
Rows of items: what the tokens of a message put into rows.

The items of a row show its fields and a label for every run of consecutive texts
that is not blank.  `slotsFrom_tokensFrom` follows the tokens of items through the
search for their arguments, and `rowsFrom_row` and `rowsFrom_end` close the rows.
-/

namespace BlockForge

namespace Text

/-- Whether a text shows anything. -/
def shows (cs : List Char) : Bool :=
  cs.any fun c => !isBlank c

theorem trim_eq_nil_iff_shows {cs : List Char} : trim cs = [] ↔ shows cs = false := by
  rw [trim_eq_nil_iff, shows, List.any_eq_false]
  simp

theorem shows_toList (s : String) : shows s.toList = !allBlank s := by
  rw [shows, allBlank, List.not_all_eq_any_not]

theorem shows_append (cs ds : List Char) : shows (cs ++ ds) = (shows cs || shows ds) :=
  List.any_append

theorem shows_space_cons (cs : List Char) : shows (' ' :: cs) = shows cs := rfl

end Text

namespace Instance

open Message (Token)

/-- The label of a run of text, if the run shows anything. -/
def labelSlots (shown : Bool) : List Slot :=
  if shown then [.label] else []

/-- The label of a run of text as a field. -/
def labels (shown : Bool) : List InstanceField :=
  if shown then [plainLabel] else []

/-- What items put into rows, when a run of text before them shows something or
not. -/
def slots : Bool → List (Item Arg) → List Slot
  | shown, [] => labelSlots shown
  | shown, .text raw :: rest => slots (shown || !Text.allBlank raw) rest
  | shown, .arg a :: rest => labelSlots shown ++ .arg a :: slots false rest

/-- The fields that the items of a row show, when a run of text before them shows
something or not. -/
def shownFrom : Bool → List (Item FieldArg) → List InstanceField
  | shown, [] => labels shown
  | shown, .text raw :: rest => shownFrom (shown || !Text.allBlank raw) rest
  | shown, .arg a :: rest => labels shown ++ fieldOfArg a :: shownFrom false rest

theorem slotsFrom_runTokens (args : List Arg) (used : List Nat)
    (run : List Char) (rest : List Token) {found : List Slot}
    (hrest : slotsFrom args used rest = .ok found) :
    slotsFrom args used (Item.runTokens run ++ rest) =
      .ok (labelSlots (Text.shows run) ++ found) := by
  by_cases hnil : run = []
  · subst hnil
    exact hrest
  · rw [Item.runTokens, if_neg hnil, List.cons_append, List.nil_append, slotsFrom,
      hrest]
    cases hshows : Text.shows run with
    | true =>
        have htrim : Text.trim run ≠ [] := by
          rw [ne_eq, Text.trim_eq_nil_iff_shows, hshows]
          decide
        simp [bind, Except.bind, htrim, labelSlots]
    | false =>
        have htrim := Text.trim_eq_nil_iff_shows.2 hshows
        simp [bind, Except.bind, htrim, labelSlots]

/-- After the last token nothing is missing, when every number up to the number of
arguments was referred to. -/
theorem slotsFrom_nil (args : List Arg) (used : List Nat)
    (hused : ∀ k, k ∈ used ↔ 1 ≤ k ∧ k ≤ args.length) :
    slotsFrom args used [] = .ok [] := by
  have hnone : (List.range args.length).find?
      (fun i => !used.contains (i + 1)) = none := by
    rw [List.find?_eq_none]
    intro i hi
    have hmem : i + 1 ∈ used :=
      (hused (i + 1)).2 ⟨by omega, List.mem_range.1 hi⟩
    simpa using hmem
  rw [slotsFrom, hnone]

/-- A reference to the argument after those referred to so far. -/
theorem slotsFrom_reference (before : List Arg) (a : Arg) (after : List Arg)
    (used : List Nat) (rest : List Token) {found : List Slot}
    (hmax : (before ++ a :: after).length ≤ maxReference)
    (hused : ∀ k, k ∈ used ↔ 1 ≤ k ∧ k ≤ before.length)
    (hrest : slotsFrom (before ++ a :: after) ((before.length + 1) :: used) rest =
      .ok found) :
    slotsFrom (before ++ a :: after) used (.reference (before.length + 1) :: rest) =
      .ok (.arg a :: found) := by
  have hmin : min (before.length + 1) maxReference = before.length + 1 := by
    simp only [List.length_append, List.length_cons] at hmax
    omega
  have hget : (before ++ a :: after)[before.length + 1 - 1]? = some a := by
    simp
  have hfresh : used.contains (before.length + 1) = false := by
    rw [← Bool.not_eq_true, List.contains_iff_mem, hused]
    omega
  simp only [slotsFrom, hmin, hget, hfresh, hrest]
  rfl

/-- Items that refer to the arguments one after the other put their arguments and
the labels of their texts into rows.  The induction keeps that `used` holds the
numbers of the arguments before the items. -/
theorem slotsFrom_tokensFrom (before : List Arg) (items : List (Item Arg))
    (used : List Nat) (run : List Char)
    (hmax : (before ++ items.filterMap Item.arg?).length ≤ maxReference)
    (hused : ∀ k, k ∈ used ↔ 1 ≤ k ∧ k ≤ before.length) :
    slotsFrom (before ++ items.filterMap Item.arg?) used
        (Item.tokensFrom run (before.length + 1) items) =
      .ok (slots (Text.shows run) items) := by
  induction items generalizing before used run with
  | nil =>
      rw [List.filterMap_nil, List.append_nil] at hmax ⊢
      have hend := slotsFrom_runTokens before used run []
        (slotsFrom_nil before used hused)
      rwa [List.append_nil, List.append_nil] at hend
  | cons item rest ih =>
      cases item with
      | text raw =>
          have hrun : Text.shows (run ++ ' ' :: raw.toList) =
              (Text.shows run || !Text.allBlank raw) := by
            rw [Text.shows_append, Text.shows_space_cons, Text.shows_toList]
          have hargs : (Item.text raw :: rest).filterMap Item.arg? =
              rest.filterMap Item.arg? := rfl
          rw [hargs] at hmax ⊢
          rw [Item.tokensFrom, ih before used _ hmax hused, hrun, slots]
      | arg a =>
          have hargs : (Item.arg a :: rest).filterMap Item.arg? =
              a :: rest.filterMap Item.arg? := rfl
          have hsplit : before ++ a :: rest.filterMap Item.arg? =
              (before ++ [a]) ++ rest.filterMap Item.arg? := by simp
          have hlength : (before ++ [a]).length = before.length + 1 := by simp
          have hshows : Text.shows (run ++ [' ']) = Text.shows run := by
            rw [Text.shows_append]
            exact Bool.or_false _
          rw [hargs] at hmax ⊢
          have htail := ih (before ++ [a]) ((before.length + 1) :: used) []
            (hsplit ▸ hmax) (by
              intro k
              rw [List.mem_cons, hused, hlength]
              omega)
          rw [hlength, ← hsplit] at htail
          rw [Item.tokensFrom, slots, ← hshows]
          exact slotsFrom_runTokens _ _ _ _
            (slotsFrom_reference before a _ used _ hmax hused htail)

/-- The message of items puts the items into rows. -/
theorem slotsFrom_message (items : List (Item Arg))
    (hmax : (items.filterMap Item.arg?).length ≤ maxReference) :
    slotsFrom (items.filterMap Item.arg?) []
        (Message.tokens (MessagePart.message (items.map Item.part))) =
      .ok (slots false items) := by
  have hused : ∀ k, k ∈ ([] : List Nat) ↔ 1 ≤ k ∧ k ≤ ([] : List Arg).length := by
    intro k
    simp only [List.not_mem_nil, List.length_nil, false_iff]
    omega
  rw [Item.tokens_message]
  cases items with
  | nil => rfl
  | cons item rest =>
      cases item with
      | text raw =>
          have htail := slotsFrom_tokensFrom [] rest [] raw.toList hmax hused
          rw [Text.shows_toList] at htail
          exact htail
      | arg a =>
          have hrest := slotsFrom_tokensFrom [a] rest [1] [] hmax (by
            intro k
            rw [List.mem_singleton, List.length_singleton]
            omega)
          exact slotsFrom_reference [] a _ [] _ hmax hused hrest

theorem rowsFrom_labelSlots (lastAlign : Align) (row : List InstanceField)
    (shown : Bool) (rest : List Slot) :
    rowsFrom lastAlign row (labelSlots shown ++ rest) =
      rowsFrom lastAlign (row ++ labels shown) rest := by
  cases shown <;> simp [labelSlots, labels, rowsFrom]

/-- A field joins the row after the label of the text before it. -/
theorem append_shownFrom_arg (row : List InstanceField) (shown : Bool)
    (a : FieldArg) (items : List (Item FieldArg)) :
    row ++ shownFrom shown (.arg a :: items) =
      (row ++ labels shown ++ [fieldOfArg a]) ++ shownFrom false items := by
  simp [shownFrom]

/-- The items of a row and the input after them close one row. -/
theorem rowsFrom_row (lastAlign : Align) (row : List InstanceField) (shown : Bool)
    (items : List (Item FieldArg)) (input : InputArg) (rest : List (Item Arg)) :
    rowsFrom lastAlign row
        (slots shown (items.map (Item.map .field) ++ .arg (.input input) :: rest)) =
      inputOfArg input (row ++ shownFrom shown items) ::
        rowsFrom lastAlign [] (slots false rest) := by
  induction items generalizing row shown with
  | nil =>
      rw [List.map_nil, List.nil_append, slots, rowsFrom_labelSlots, rowsFrom,
        shownFrom]
  | cons item items ih =>
      cases item with
      | text raw => exact ih row _
      | arg a =>
          rw [List.map_cons, List.cons_append, Item.map, slots,
            rowsFrom_labelSlots, rowsFrom, ih, append_shownFrom_arg]

/-- The items after the last input form a row of their own if they show anything. -/
theorem rowsFrom_end (lastAlign : Align) (row : List InstanceField) (shown : Bool)
    (items : List (Item FieldArg)) :
    rowsFrom lastAlign row (slots shown (items.map (Item.map .field))) =
      if row ++ shownFrom shown items = [] then []
      else [⟨none, .dummy, lastAlign, none, row ++ shownFrom shown items⟩] := by
  induction items generalizing row shown with
  | nil =>
      rw [List.map_nil, slots, ← List.append_nil (labelSlots shown),
        rowsFrom_labelSlots, shownFrom]
      cases row ++ labels shown <;> simp [rowsFrom]
  | cons item items ih =>
      cases item with
      | text raw => exact ih row _
      | arg a =>
          rw [List.map_cons, Item.map, slots, rowsFrom_labelSlots, rowsFrom, ih,
            append_shownFrom_arg]

/-- The block of a descriptor whose message and arguments are those of items. -/
theorem ofDescriptor_message (d : Descriptor) (items : List (Item Arg))
    (hmessage : d.message = MessagePart.message (items.map Item.part))
    (hargs : d.args = items.filterMap Item.arg?)
    (hmax : d.args.length ≤ Word.maxUnsigned) :
    ofDescriptor d = .ok
      { blockType := d.blockType
        inputs := rowsFrom (d.lastDummyAlign.getD .left) [] (slots false items)
        connections := d.connections } := by
  rw [ofDescriptor, hmessage, hargs, slotsFrom_message items (hargs ▸ hmax)]
  rfl

end Instance

end BlockForge
