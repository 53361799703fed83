import BlockForge.Proofs.Rendering

/-!
References of an assembled message: reading the message of a definition gives the
references from one up to the number of arguments, and around them the texts of the
literal blocks as they stand in the editor.

`Workspace.messageItems` says where the texts and the arguments of a container stand,
without a message.  A text keeps the spaces that join it to its neighbours, so the
texts between two arguments are joined with an empty text in the place of each argument.
-/

namespace BlockForge

namespace Message

/-- The number that a reference is read as. -/
def Token.number? : Token → Option Nat
  | .text _ => none
  | .reference n => some (min n Instance.maxReference)

/-- The numbers of the references in order. -/
def references (tokens : List Token) : List Nat :=
  tokens.filterMap Token.number?

/-- The text before the first reference, between any two, and after the last one. -/
def runs : List Token → List (List Char)
  | [] => [[]]
  | .text run :: rest => (runs rest).modifyHead (run ++ ·)
  | .reference _ :: rest => [] :: runs rest

end Message

/-- The field that an argument is, if it is no input. -/
def Arg.field? : Arg → Option FieldArg
  | .field a => some a
  | .input _ => none

namespace Item

variable {α β : Type}

/-- Whether an item shows anything in its row. -/
def shows : Item α → Bool
  | .text raw => !Text.allBlank raw
  | .arg _ => true

/-- The texts before the first argument, between any two, and after the last one. -/
def gaps : List (Item α) → List (List String)
  | [] => [[]]
  | .text raw :: rest => (gaps rest).modifyHead (raw :: ·)
  | .arg _ :: rest => [] :: gaps rest

/-- Texts joined by single spaces with each other and with the arguments that stand
before and after them. -/
def gapText (before after : Bool) (texts : List String) : List Char :=
  (String.intercalate " " ((if before then [""] else []) ++ texts ++
    (if after then [""] else []))).toList

/-- The joined texts of gaps, an argument between any two.  The flag says whether one
stands before the first gap. -/
def gapTexts : Bool → List (List String) → List (List Char)
  | _, [] => []
  | before, [texts] => [gapText before false texts]
  | before, texts :: next :: rest => gapText before true texts :: gapTexts true (next :: rest)

theorem gaps_ne_nil (items : List (Item α)) : gaps items ≠ [] := by
  induction items with
  | nil => exact List.cons_ne_nil _ _
  | cons item rest ih =>
      cases item with
      | text raw => simpa [gaps] using ih
      | arg a => exact List.cons_ne_nil _ _

theorem gaps_map (f : α → β) (items : List (Item α)) :
    gaps (items.map (Item.map f)) = gaps items := by
  induction items with
  | nil => rfl
  | cons item rest ih =>
      cases item <;> simp [Item.map, gaps, ih]

theorem filterMap_arg?_map (f : α → β) (items : List (Item α)) :
    (items.map (Item.map f)).filterMap arg? = (items.filterMap arg?).map f := by
  induction items with
  | nil => rfl
  | cons item rest ih =>
      cases item <;> simp [Item.map, arg?, List.filterMap_cons, ih]

/-- The first text of a gap with nothing before it starts the gap. -/
theorem gapText_cons (after : Bool) (raw : String) (texts : List String) :
    gapText false after (raw :: texts) = raw.toList ++ gapText true after texts := by
  have hjoin := String.intercalate_cons_append (s := " ") (t := raw) (u := "")
    (l := texts ++ if after then [""] else [])
  rw [String.append_empty] at hjoin
  simp only [gapText, Bool.false_eq_true, if_false, if_true, List.nil_append, List.cons_append,
    hjoin, String.toList_append]

/-- After an argument every text has a space before it. -/
theorem gapText_true_cons (after : Bool) (raw : String) (texts : List String) :
    gapText true after (raw :: texts) = ' ' :: raw.toList ++ gapText true after texts := by
  have hspace : gapText true after (raw :: texts) = ' ' :: gapText false after (raw :: texts) := by
    simp [gapText]
  rw [hspace, gapText_cons]
  rfl

theorem gapTexts_modifyHead (raw : String) {gaps : List (List String)} (h : gaps ≠ []) :
    gapTexts false (gaps.modifyHead (raw :: ·)) =
      (gapTexts true gaps).modifyHead (raw.toList ++ ·) := by
  cases gaps with
  | nil => exact absurd rfl h
  | cons texts rest =>
      cases rest with
      | nil => simp [gapTexts, gapText_cons]
      | cons next rest => simp [gapTexts, gapText_cons]

theorem gapTexts_true_modifyHead (raw : String) (gaps : List (List String)) :
    gapTexts true (gaps.modifyHead (raw :: ·)) =
      (gapTexts true gaps).modifyHead ((' ' :: raw.toList) ++ ·) := by
  cases gaps with
  | nil => rfl
  | cons texts rest =>
      cases rest with
      | nil => simp [gapTexts, gapText_true_cons]
      | cons next rest => simp [gapTexts, gapText_true_cons]

theorem gapTexts_nil_cons (before : Bool) {gaps : List (List String)} (h : gaps ≠ []) :
    gapTexts before ([] :: gaps) = (if before then [' '] else []) :: gapTexts true gaps := by
  cases gaps with
  | nil => exact absurd rfl h
  | cons next rest => cases before <;> simp [gapTexts, gapText]

end Item

namespace Message

theorem modifyHead_nil_append {γ : Type} (lists : List (List γ)) :
    lists.modifyHead ([] ++ ·) = lists := by
  cases lists <;> rfl

theorem runs_runTokens_append (run : List Char) (rest : List Token) :
    runs (Item.runTokens run ++ rest) = (runs rest).modifyHead (run ++ ·) := by
  by_cases hnil : run = []
  · subst hnil
    exact (modifyHead_nil_append _).symm
  · rw [Item.runTokens, if_neg hnil]
    rfl

theorem references_runTokens_append (run : List Char) (rest : List Token) :
    references (Item.runTokens run ++ rest) = references rest := by
  by_cases hnil : run = []
  · subst hnil
    rfl
  · rw [Item.runTokens, if_neg hnil]
    rfl

end Message

namespace Item

open Message (references runs)

variable {α : Type}

/-- The runs of items that stand after an argument and some text: the text goes before
the first gap.  The induction is on the items, with the text that was read since the
last argument. -/
theorem runs_tokensFrom (run : List Char) (n : Nat) (items : List (Item α)) :
    runs (tokensFrom run n items) = (gapTexts true (gaps items)).modifyHead (run ++ ·) := by
  induction items generalizing run n with
  | nil =>
      have hend := Message.runs_runTokens_append run []
      rw [List.append_nil] at hend
      rw [tokensFrom, hend]
      rfl
  | cons item rest ih =>
      cases item with
      | text raw =>
          rw [tokensFrom, ih, gaps, gapTexts_true_modifyHead, List.modifyHead_modifyHead]
          congr 1
          funext texts
          simp
      | arg a =>
          rw [tokensFrom, Message.runs_runTokens_append, runs, ih,
            Message.modifyHead_nil_append, gaps, gapTexts_nil_cons true (gaps_ne_nil rest)]
          simp

/-- The text around the references of items is that of their gaps. -/
theorem runs_tokens (items : List (Item α)) :
    runs (tokens items) = gapTexts false (gaps items) := by
  cases items with
  | nil => rfl
  | cons item rest =>
      cases item with
      | text raw => rw [tokens, runs_tokensFrom, gaps, gapTexts_modifyHead _ (gaps_ne_nil rest)]
      | arg a =>
          rw [tokens, runs, runs_tokensFrom, Message.modifyHead_nil_append, gaps,
            gapTexts_nil_cons false (gaps_ne_nil rest)]
          rfl

/-- The references of items count their arguments from the given number on. -/
theorem references_tokensFrom (run : List Char) (n : Nat) (items : List (Item α))
    (hmax : n + (items.filterMap arg?).length ≤ Instance.maxReference + 1) :
    references (tokensFrom run n items) = List.range' n (items.filterMap arg?).length := by
  induction items generalizing run n with
  | nil =>
      have hend := Message.references_runTokens_append run []
      rw [List.append_nil] at hend
      rw [tokensFrom, hend]
      rfl
  | cons item rest ih =>
      cases item with
      | text raw => exact ih _ n hmax
      | arg a =>
          have hargs : (Item.arg a :: rest).filterMap arg? = a :: rest.filterMap arg? := rfl
          rw [hargs, List.length_cons] at hmax ⊢
          have hn : min n Instance.maxReference = n := by omega
          have hrest := ih [] (n + 1) (by omega)
          rw [tokensFrom, Message.references_runTokens_append, List.range'_succ, ← hrest]
          change min n Instance.maxReference :: _ = _
          rw [hn]
          rfl

theorem references_tokens (items : List (Item α))
    (hmax : (items.filterMap arg?).length ≤ Instance.maxReference) :
    references (tokens items) = List.range' 1 (items.filterMap arg?).length := by
  cases items with
  | nil => rfl
  | cons item rest =>
      cases item with
      | text raw =>
          have hargs : (Item.text raw :: rest).filterMap arg? = rest.filterMap arg? := rfl
          rw [hargs] at hmax ⊢
          exact references_tokensFrom _ 1 rest (by omega)
      | arg a =>
          have hargs : (Item.arg a :: rest).filterMap arg? = a :: rest.filterMap arg? := rfl
          rw [hargs, List.length_cons] at hmax ⊢
          have hrest := references_tokensFrom [] 2 rest (by omega)
          rw [List.range'_succ, ← hrest]
          have hone : min 1 Instance.maxReference = 1 := by omega
          change min 1 Instance.maxReference :: _ = _
          rw [hone]
          rfl

end Item

namespace Workspace

variable (ws : Workspace)

/-- The items of some input blocks one block after the other: the items of its fields,
and then the input itself.  An input at the very end is left out if it is a dummy and
its fields show anything. -/
def itemsOf : List (NodeId × Node × InputKind) → List (Item (Option FieldArg))
  | [] => []
  | [(id, _, kind)] =>
      let items := ws.items (ws.slot? id "FIELDS")
      items.map (Item.map some) ++
        if kind = .dummy ∧ items.any Item.shows then [] else [.arg none]
  | (id, _, _) :: next :: rest =>
      (ws.items (ws.slot? id "FIELDS")).map (Item.map some) ++
        .arg none :: itemsOf (next :: rest)

/-- Where the texts and arguments of a container stand: the text or the field of each
enabled field block, and nothing more than the place of each input. -/
def messageItems (root : NodeId) : List (Item (Option FieldArg)) :=
  ws.itemsOf (ws.inputs root)

/-- The items of an input block and the input that closes them. -/
structure Lists (input : NodeId × Node × InputKind) (r : ItemRow) : Prop where
  items : r.items = ws.items (ws.slot? input.1 "FIELDS")
  kind : r.input.kind = input.2.2

end Workspace

namespace ItemRow

theorem hasContent_row (r : ItemRow) : r.row.hasContent = r.items.any Item.shows := by
  have hitem (item : Item FieldArg) : item.token.hasContent = item.shows := by
    cases item with
    | text raw => simp [Item.token, FieldToken.hasContent, Item.shows, Text.allBlank_escapePercent]
    | arg a => rfl
  rw [Row.hasContent, row, List.any_map]
  congr 1
  funext item
  exact hitem item

theorem message_singleton (r : ItemRow) :
    message [r] = r.items.map (Item.map .field) ++
      if r.input.kind = .dummy ∧ r.items.any Item.shows then [] else [.arg (.input r.input)] := by
  have hdropped : droppedInput? ([r].map row) =
      if r.input.kind = .dummy ∧ r.items.any Item.shows then some r.input else none := by
    simp only [← hasContent_row]
    rfl
  have hparts : [r].flatMap parts = r.items.map (Item.map .field) ++ [.arg (.input r.input)] := by
    simp [parts]
  rw [message, hdropped, hparts]
  by_cases hlast : r.input.kind = .dummy ∧ r.items.any Item.shows
  · rw [if_pos hlast, if_pos hlast, List.append_nil]
    exact List.dropLast_concat
  · rw [if_neg hlast, if_neg hlast]

/-- Only the last row can lose its input. -/
theorem message_cons_cons (r next : ItemRow) (rest : List ItemRow) :
    message (r :: next :: rest) = r.parts ++ message (next :: rest) := by
  have hdropped : droppedInput? ((r :: next :: rest).map row) =
      droppedInput? ((next :: rest).map row) := by
    simp [droppedInput?]
  have hne : (next :: rest).flatMap parts ≠ [] := by
    simp [parts]
  rw [message, message, hdropped, List.flatMap_cons]
  cases droppedInput? ((next :: rest).map row) with
  | none => rfl
  | some input => exact List.dropLast_append_of_ne_nil hne

end ItemRow

namespace Workspace

variable {ws : Workspace}

theorem exists_lists_of_row {input : NodeId × Node × InputKind} {r : Row}
    (h : ws.row input = .ok r) : ∃ ir : ItemRow, ir.row = r ∧ ws.Lists input ir := by
  rw [Workspace.row, except_bind_eq_ok_iff] at h
  obtain ⟨found, _, h⟩ := h
  obtain rfl := Except.ok.inj h
  rw [fieldTokens_eq]
  exact ⟨⟨ws.items (ws.slot? input.1 "FIELDS"), _⟩, rfl, ⟨rfl, rfl⟩⟩

theorem exists_lists_of_rows {root : NodeId} {rows : List Row} (h : ws.rows root = .ok rows) :
    ∃ irs : List ItemRow, irs.map ItemRow.row = rows ∧
      List.Forall₂ ws.Lists (ws.inputs root) irs := by
  have hrows := forall₂_of_mapM h
  clear h
  generalize ws.inputs root = inputs at hrows ⊢
  induction hrows with
  | nil => exact ⟨[], rfl, .nil⟩
  | cons hrow _ ih =>
      obtain ⟨ir, rfl, hlists⟩ := exists_lists_of_row hrow
      obtain ⟨irs, rfl, hall⟩ := ih
      exact ⟨ir :: irs, rfl, .cons hlists hall⟩

/-- The items of input blocks are those of the message of their rows. -/
theorem itemsOf_eq_message {inputs : List (NodeId × Node × InputKind)} {irs : List ItemRow}
    (h : List.Forall₂ ws.Lists inputs irs) :
    ws.itemsOf inputs = (ItemRow.message irs).map (Item.map Arg.field?) := by
  have hfields (items : List (Item FieldArg)) :
      (items.map (Item.map Arg.field)).map (Item.map Arg.field?) = items.map (Item.map some) := by
    rw [List.map_map]
    congr 1
    funext item
    cases item <;> rfl
  induction h with
  | nil => rfl
  | @cons input r inputs irs hlists hrest ih =>
      cases hrest with
      | nil =>
          rw [ItemRow.message_singleton, List.map_append, hfields, hlists.items, hlists.kind,
            itemsOf, apply_ite (List.map (Item.map Arg.field?))]
          rfl
      | @cons next nextRow inputs irs _ _ =>
          rw [ItemRow.message_cons_cons, List.map_append, ← ih, ItemRow.parts, List.map_append,
            hfields, hlists.items, itemsOf, List.append_assoc]
          rfl

end Workspace

/-- Reading an assembled message gives the references of all arguments, each once and
in order, and around them the texts of the literal blocks at that place as they stand
in the editor.  What stands at a reference is the argument that the reference refers
to. -/
theorem references_of_assemble (c : Compiler) (ws : Workspace) (root : NodeId) {d : Descriptor}
    (hd : c.assemble ws root = .ok d) (hargs : d.args.length ≤ Word.maxUnsigned) :
    Message.references (Message.tokens d.message) = List.range' 1 d.args.length ∧
      Message.runs (Message.tokens d.message) =
        Item.gapTexts false (Item.gaps (ws.messageItems root)) ∧
      d.args.map Arg.field? = (ws.messageItems root).filterMap Item.arg? := by
  obtain ⟨rows, layout, hrows, _, rfl⟩ := Compiler.assemble_eq_ok_iff.1 hd
  obtain ⟨irs, rfl, hlists⟩ := Workspace.exists_lists_of_rows hrows
  have hitems : ws.messageItems root = (ItemRow.message irs).map (Item.map Arg.field?) :=
    Workspace.itemsOf_eq_message hlists
  have hparts := ItemRow.rowParts_row irs
  simp only [Descriptor.message_withConnections, Descriptor.args_withConnections,
    Compiler.describe, hparts, List.filterMap_map, Item.tokens_message] at hargs ⊢
  have hcount : (MessagePart.arg? ∘ Item.part) = Item.arg? := funext Item.part_arg?
  rw [hcount] at hargs ⊢
  rw [hitems, Item.gaps_map, Item.filterMap_arg?_map]
  exact ⟨Item.references_tokens _ hargs, Item.runs_tokens _, rfl⟩

theorem references_of_assemble_percentRows :
    ({} : Compiler).assemble percentRows 0 = .ok percentDescriptor ∧
      percentDescriptor.args.length ≤ Word.maxUnsigned ∧
      Message.references (Message.tokens percentDescriptor.message) = [1, 2] ∧
      Message.runs (Message.tokens percentDescriptor.message) =
        ["100%1 ".toList, " ".toList, "   %".toList] ∧
      percentDescriptor.args.map Arg.field? = [some (.text "N" "%2"), none] := by
  have hd : ({} : Compiler).assemble percentRows 0 = .ok percentDescriptor := by
    decide +kernel
  have hargs : percentDescriptor.args.length ≤ Word.maxUnsigned := by decide
  have hitems : percentRows.messageItems 0 =
      [.text "100%1", .arg (some (.text "N" "%2")), .arg none, .text " ", .text "%"] := by
    decide +kernel
  obtain ⟨hreferences, hruns, hfields⟩ := references_of_assemble {} percentRows 0 hd hargs
  rw [hitems] at hruns hfields
  exact ⟨hd, hargs, hreferences, hruns.trans (by decide +kernel), hfields⟩

end BlockForge
