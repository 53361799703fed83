import BlockForge.Proofs.Fallible
import BlockForge.Proofs.Instance

/-!
Rendering a definition: the descriptor that a container's blocks are assembled
into shows one row for each enabled input block, with the fields of that block.

What a row shows is said here by the blocks in it, without tokens or a message: the
literal texts between two fields make one label unless their joined text is blank, and
every other field block shows a field of the kind that its own kind says, named by its
`FIELDNAME`.  `ofDescriptor_assemble` compares this with reading the message of the
assembled descriptor.
-/

namespace BlockForge

/-- A part of a row: texts that stand next to each other, or a field. -/
inductive RowPart where
  | run (texts : List String)
  | field (shown : InstanceField)

namespace RowPart

/-- Put a text in front of the first run of texts. -/
def consText (raw : String) : List RowPart → List RowPart
  | .run texts :: rest => .run (raw :: texts) :: rest
  | parts => .run [raw] :: parts

/-- Items with all the texts that stand next to each other in one run. -/
def ofItems : List (Item InstanceField) → List RowPart
  | [] => []
  | .text raw :: rest => consText raw (ofItems rest)
  | .arg shown :: rest => .field shown :: ofItems rest

/-- What a part of a row shows: a label without a name unless the joined text is blank, or
the field. -/
def shown? : RowPart → Option InstanceField
  | .run texts =>
      if Text.allBlank (String.intercalate " " texts) then none
      else some ⟨none, .label⟩
  | .field shown => some shown

end RowPart

/-- The kind of field that a block of some kind shows. -/
def Kind.field? : Kind → Option FieldKind
  | .textField => some .textInput
  | .numberField => some .number
  | .angleField => some .angle
  | .checkboxField => some .checkbox
  | .colourField => some .colour
  | .variableField => some .variablePicker
  | .dropdownField => some .dropdown
  | .imageField => some .image
  | _ => none

/-- The field that a block shows.  An image has no name, and a dropdown without options
shows nothing. -/
def Node.shownField? (node : Node) : Option InstanceField :=
  if node.kind = .dropdownField ∧ node.itemCount = 0 then none
  else
    node.kind.field?.map fun kind =>
      ⟨if kind = .image then none else some (node.text "FIELDNAME"), kind⟩

/-- What a block brings into its row: its text as it stands in the editor, or the field that
it shows. -/
def Node.shownItem? (node : Node) : Option (Item InstanceField) :=
  if node.kind = .literalText then some (.text (node.text "TEXT"))
  else node.shownField?.map .arg

/-- The block of an input of some kind. -/
def InputKind.block : InputKind → Kind
  | .dummy => .dummyInput
  | .value => .valueInput
  | .statement => .statementInput

namespace Workspace

/-- The fields that a chain of field blocks shows.  Blocks that are switched off show
none. -/
def shownFields (ws : Workspace) (head : Option NodeId) : List InstanceField :=
  let items := ((ws.chain head).filter ws.isEnabled).filterMap fun id =>
    (ws.node? id).bind Node.shownItem?
  (RowPart.ofItems items).filterMap RowPart.shown?

/-- The input blocks of a container that are not switched off, in the order of their
chain. -/
def inputBlocks (ws : Workspace) (root : NodeId) : List NodeId :=
  ((ws.chain (ws.slot? root "INPUTS")).filter ws.isEnabled).filter fun id =>
    (ws.node? id).any fun node =>
      node.kind = .dummyInput ∨ node.kind = .valueInput ∨ node.kind = .statementInput

/-- The row that an input block stands for. -/
structure Shows (ws : Workspace) (id : NodeId) (row : InstanceInput) : Prop where
  kind : (ws.node? id).map Node.kind = some row.kind.block
  align : row.align = .ofField (ws.field? id "ALIGN")
  name : row.name =
    if row.kind = .dummy then none else some ((ws.field? id "INPUTNAME").getD "")
  check : ∃ found, ws.typeConstraint id "TYPE" = .ok found ∧
    row.check = found.filter fun c => c ≠ .any
  fields : row.fields = ws.shownFields (ws.slot? id "FIELDS")

end Workspace

/-- A last row that a dummy closes has no check of its own as soon as it shows
something. -/
def InstanceInput.withoutLastCheck : List InstanceInput → List InstanceInput
  | [] => []
  | [row] =>
      if row.kind = .dummy ∧ row.fields ≠ [] then [{ row with check := none }]
      else [row]
  | row :: next :: rest => row :: withoutLastCheck (next :: rest)

/-- A layout without a single connection is none. -/
def Connections.present : Connections → Connections
  | .output Option.none => .none
  | .statement Option.none Option.none => .none
  | layout => layout

namespace Descriptor

variable (d : Descriptor) (layout : Connections)

@[simp] theorem blockType_withConnections :
    (d.withConnections layout).blockType = d.blockType := by
  cases layout <;> rfl

@[simp] theorem lastDummyAlign_withConnections :
    (d.withConnections layout).lastDummyAlign = d.lastDummyAlign := by
  cases layout <;> rfl

@[simp] theorem message_withConnections :
    (d.withConnections layout).message = d.message := by
  cases layout <;> rfl

@[simp] theorem args_withConnections : (d.withConnections layout).args = d.args := by
  cases layout <;> rfl

@[simp] theorem colour_withConnections :
    (d.withConnections layout).colour = d.colour := by
  cases layout <;> rfl

theorem connections_withConnections :
    (d.withConnections layout).connections = layout.present := by
  cases layout with
  | none => rfl
  | output check => cases check <;> rfl
  | statement previous next => cases previous <;> cases next <;> rfl

end Descriptor

namespace Text

theorem allBlank_escapePercent (raw : String) :
    allBlank (escapePercent raw) = allBlank raw := by
  have hpercent : isBlank '%' = false := by decide
  rw [allBlank, allBlank, escapePercent, String.toList_ofList]
  induction raw.toList with
  | nil => rfl
  | cons c cs ih =>
      by_cases hc : c = '%'
      · simp [hc, hpercent]
      · simp [hc, ← ih]

theorem allBlank_append (s t : String) :
    allBlank (s ++ t) = (allBlank s && allBlank t) := by
  simp [allBlank]

/-- Joined texts are blank when each of them is. -/
theorem allBlank_intercalate_cons (s : String) (texts : List String) :
    allBlank (String.intercalate " " (s :: texts)) =
      (allBlank s && allBlank (String.intercalate " " texts)) := by
  cases texts with
  | nil =>
      have hnil : allBlank "" = true := rfl
      simp [hnil]
  | cons t texts =>
      have hspace : allBlank " " = true := by decide
      rw [String.intercalate_cons_cons, allBlank_append, allBlank_append, hspace,
        Bool.and_true]

end Text

namespace Instance

/-- The fields of a row are those of its parts.  A run of text before the items
joins the first run of texts among them. -/
theorem shownFrom_eq_parts (shown : Bool) (items : List (Item FieldArg)) :
    shownFrom shown items =
      match RowPart.ofItems (items.map (Item.map fieldOfArg)) with
      | .run texts :: parts =>
          labels (shown || !Text.allBlank (String.intercalate " " texts)) ++
            parts.filterMap RowPart.shown?
      | parts => labels shown ++ parts.filterMap RowPart.shown? := by
  induction items generalizing shown with
  | nil => simp [shownFrom, RowPart.ofItems]
  | cons item items ih =>
      cases item with
      | text raw =>
          rw [shownFrom, ih, List.map_cons, Item.map, RowPart.ofItems]
          cases RowPart.ofItems (items.map (Item.map fieldOfArg)) with
          | nil => simp [RowPart.consText]
          | cons part parts =>
              cases part with
              | run texts =>
                  simp [RowPart.consText, Text.allBlank_intercalate_cons,
                    Bool.or_assoc]
              | field a => simp [RowPart.consText]
      | arg a =>
          rw [shownFrom, ih, List.map_cons, Item.map, RowPart.ofItems]
          simp only [List.filterMap_cons, RowPart.shown?]
          cases RowPart.ofItems (items.map (Item.map fieldOfArg)) with
          | nil => simp [labels]
          | cons part parts =>
              cases part with
              | run texts =>
                  cases hblank : Text.allBlank (String.intercalate " " texts) <;>
                    simp [labels, plainLabel, RowPart.shown?, hblank]
              | field b => simp [labels]

theorem shownFrom_false (items : List (Item FieldArg)) :
    shownFrom false items =
      (RowPart.ofItems (items.map (Item.map fieldOfArg))).filterMap RowPart.shown? := by
  rw [shownFrom_eq_parts]
  cases RowPart.ofItems (items.map (Item.map fieldOfArg)) with
  | nil => rfl
  | cons part parts =>
      cases part with
      | run texts =>
          cases hblank : Text.allBlank (String.intercalate " " texts) <;>
            simp [labels, plainLabel, RowPart.shown?, hblank]
      | field a => simp [labels]

/-- Items show something exactly when one of them does. -/
theorem shownFrom_eq_nil_iff (shown : Bool) (items : List (Item FieldArg)) :
    shownFrom shown items = [] ↔
      shown = false ∧ ∀ item ∈ items, ∃ raw, item = .text raw ∧
        Text.allBlank raw = true := by
  induction items generalizing shown with
  | nil => cases shown <;> simp [shownFrom, labels]
  | cons item items ih =>
      cases item with
      | text raw =>
          rw [shownFrom, ih]
          simp [and_assoc]
      | arg a => simp [shownFrom]

end Instance

/-- The token that an item becomes. -/
def Item.token : Item FieldArg → FieldToken
  | .text raw => .text (escapePercent raw)
  | .arg a => .field a

namespace Node

/-- The text of a field block as it stands in the editor, or the argument that it
becomes. -/
def item? (node : Node) : Option (Item FieldArg) :=
  match node.token? with
  | some (.text _) => some (.text (node.text "TEXT"))
  | some (.field a) => some (.arg a)
  | none => none

theorem token?_eq (node : Node) : node.token? = node.item?.map Item.token := by
  unfold item? token?
  cases hkind : node.kind with
  | dropdownField => by_cases hempty : node.options.isEmpty <;> simp [hempty, Item.token]
  | _ => simp [Item.token]

theorem isEmpty_options (node : Node) : node.options.isEmpty = true ↔ node.itemCount = 0 := by
  rw [options, List.isEmpty_iff, List.map_eq_nil_iff, List.range_eq_nil]

/-- The argument that a field block becomes is rendered as the field that the block
shows. -/
theorem shownItem?_eq (node : Node) :
    node.shownItem? = node.item?.map (Item.map Instance.fieldOfArg) := by
  unfold shownItem? shownField? item? token?
  cases hkind : node.kind with
  | dropdownField =>
      simp only [isEmpty_options]
      by_cases hcount : node.itemCount = 0
      · simp [hcount]
      · simp [hcount, Kind.field?, Item.map, Instance.fieldOfArg, FieldArg.name?,
          FieldKind.ofArg]
  | _ =>
      simp [Kind.field?, Item.map, Instance.fieldOfArg, FieldArg.name?, FieldKind.ofArg]

end Node

namespace Workspace

/-- The items of a chain of field blocks, without the ones switched off. -/
def items (ws : Workspace) (head : Option NodeId) : List (Item FieldArg) :=
  ((ws.chain head).filter ws.isEnabled).filterMap fun id =>
    (ws.node? id).bind Node.item?

theorem fieldTokens_eq (ws : Workspace) (head : Option NodeId) :
    ws.fieldTokens head = (ws.items head).map Item.token := by
  rw [fieldTokens, items, List.map_filterMap]
  congr 1
  funext id
  cases ws.node? id with
  | none => rfl
  | some node => exact node.token?_eq

theorem shownFields_eq (ws : Workspace) (head : Option NodeId) :
    ws.shownFields head = Instance.shownFrom false (ws.items head) := by
  rw [Instance.shownFrom_false, shownFields, items, List.map_filterMap]
  congr 3
  funext id
  cases ws.node? id with
  | none => rfl
  | some node => exact node.shownItem?_eq

/-- The input blocks are those of which the rows are made. -/
theorem inputBlocks_eq (ws : Workspace) (root : NodeId) :
    ws.inputBlocks root = (ws.inputs root).map Prod.fst := by
  rw [inputBlocks, inputs, List.map_filterMap, ← List.filterMap_eq_filter]
  congr 1
  funext id
  rw [Option.guard]
  cases ws.node? id with
  | none => rfl
  | some node =>
      rw [Option.any_some, Option.bind_some]
      cases node.kind <;> rfl

theorem of_mem_inputs {ws : Workspace} {root : NodeId} {input : NodeId × Node × InputKind}
    (h : input ∈ ws.inputs root) :
    ws.node? input.1 = some input.2.1 ∧ input.2.1.kind = input.2.2.block := by
  obtain ⟨id, -, h⟩ := List.mem_filterMap.1 h
  obtain ⟨node, hnode, h⟩ := Option.bind_eq_some_iff.1 h
  obtain ⟨kind, hkind, rfl⟩ := Option.map_eq_some_iff.1 h
  refine ⟨hnode, ?_⟩
  cases hblock : node.kind <;> rw [hblock] at hkind <;> cases hkind <;> rfl

end Workspace

/-- A row of items and the input that closes it. -/
structure ItemRow where
  items : List (Item FieldArg)
  input : InputArg

namespace ItemRow

/-- The row with its items as tokens. -/
def row (r : ItemRow) : Row :=
  ⟨r.items.map Item.token, r.input⟩

/-- The items of the row and its input, as items of a message. -/
def parts (r : ItemRow) : List (Item Arg) :=
  r.items.map (Item.map .field) ++ [.arg (.input r.input)]

/-- The row as it shows. -/
def shown (r : ItemRow) : InstanceInput :=
  Instance.inputOfArg r.input (Instance.shownFrom false r.items)

theorem parts_row (r : ItemRow) : r.row.parts = r.parts.map Item.part := by
  have htoken (item : Item FieldArg) :
      MessagePart.ofToken item.token = (item.map Arg.field).part := by
    cases item <;> rfl
  simp [Row.parts, row, parts, Item.part, htoken]

/-- A row has content exactly when it shows a field. -/
theorem hasContent_row_iff (r : ItemRow) :
    r.row.hasContent = true ↔ r.shown.fields ≠ [] := by
  have hitem (item : Item FieldArg) : item.token.hasContent = false ↔
      ∃ raw, item = .text raw ∧ Text.allBlank raw = true := by
    cases item <;> simp [Item.token, FieldToken.hasContent, Text.allBlank_escapePercent]
  have hfields : r.shown.fields = Instance.shownFrom false r.items := rfl
  rw [hfields, ne_eq, Instance.shownFrom_eq_nil_iff, Row.hasContent, row,
    ← Bool.not_eq_false, List.any_map, List.any_eq_false]
  simp [hitem]

/-- The items of the message of some rows.  An input that is left out is the last
item. -/
def message (rows : List ItemRow) : List (Item Arg) :=
  match droppedInput? (rows.map row) with
  | some _ => (rows.flatMap parts).dropLast
  | none => rows.flatMap parts

theorem rowParts_row (rows : List ItemRow) :
    rowParts (rows.map row) = (message rows).map Item.part := by
  have hparts : (rows.map row).flatMap Row.parts =
      (rows.flatMap parts).map Item.part := by
    rw [List.flatMap_map, List.map_flatMap]
    simp only [parts_row]
  rw [rowParts, message, hparts]
  cases droppedInput? (rows.map row) with
  | none => rfl
  | some input => exact List.map_dropLast.symm

/-- The rows before some items are closed by their own inputs. -/
theorem rowsFrom_rows (lastAlign : Align) (rows : List ItemRow)
    (rest : List (Item Arg)) :
    Instance.rowsFrom lastAlign []
        (Instance.slots false (rows.flatMap parts ++ rest)) =
      rows.map shown ++
        Instance.rowsFrom lastAlign [] (Instance.slots false rest) := by
  induction rows with
  | nil => rfl
  | cons r rows ih =>
      have hparts : (r :: rows).flatMap parts ++ rest =
          r.items.map (Item.map .field) ++
            .arg (.input r.input) :: (rows.flatMap parts ++ rest) := by
        simp [parts]
      rw [hparts, Instance.rowsFrom_row, ih]
      rfl

theorem droppedInput?_concat (rows : List ItemRow) (r : ItemRow) :
    droppedInput? ((rows ++ [r]).map row) =
      if r.input.kind = .dummy ∧ r.shown.fields ≠ [] then some r.input
      else none := by
  simp only [← hasContent_row_iff, droppedInput?, List.map_append,
    List.map_singleton, List.getLast?_concat]
  rfl

end ItemRow

theorem InstanceInput.withoutLastCheck_concat (rows : List InstanceInput)
    (row : InstanceInput) :
    withoutLastCheck (rows ++ [row]) = rows ++
      [if row.kind = .dummy ∧ row.fields ≠ [] then { row with check := none }
        else row] := by
  induction rows with
  | nil =>
      rw [List.nil_append, List.nil_append, withoutLastCheck]
      split <;> rfl
  | cons first rest ih =>
      cases rest with
      | nil => simpa [withoutLastCheck] using ih
      | cons second rest => simpa [withoutLastCheck] using ih

namespace ItemRow

/-- The message of rows shows the rows, whether or not the last input is left
out: a row without its input is closed at the end instead. -/
theorem rowsFrom_message (rows : List ItemRow)
    (hname : ∀ r ∈ rows, r.input.kind = .dummy → r.input.name = none) :
    Instance.rowsFrom ((droppedAlign? (rows.map row)).getD .left) []
        (Instance.slots false (message rows)) =
      InstanceInput.withoutLastCheck (rows.map shown) := by
  rcases List.eq_nil_or_concat rows with rfl | ⟨init, last, rfl⟩
  · rfl
  · rw [List.concat_eq_append] at hname ⊢
    have hlast : last.shown.kind = last.input.kind := rfl
    rw [message, droppedAlign?, droppedInput?_concat, List.map_append,
      List.map_singleton, InstanceInput.withoutLastCheck_concat, hlast]
    by_cases hdrop : last.input.kind = .dummy ∧ last.shown.fields ≠ []
    · have hparts : ((init ++ [last]).flatMap parts).dropLast =
          init.flatMap parts ++ last.items.map (Item.map .field) := by
        simp [parts, ← List.append_assoc]
      have hfields : ¬ Instance.shownFrom false last.items = [] := hdrop.2
      have halign : ((some last.input).bind fun input =>
          if input.align.isLeft then none else some input.align).getD .left =
            last.input.align := by
        cases halign : last.input.align <;> simp [halign, Align.isLeft]
      have hnone := hname last (by simp) hdrop.1
      rw [if_pos hdrop, if_pos hdrop, halign]
      simp only [hparts]
      rw [rowsFrom_rows, Instance.rowsFrom_end, List.nil_append, if_neg hfields,
        shown, Instance.inputOfArg, hnone, hdrop.1]
    · have hend (lastAlign : Align) :=
        rowsFrom_rows lastAlign (init ++ [last]) []
      simp only [List.append_nil] at hend
      rw [if_neg hdrop, if_neg hdrop]
      simp only [hend]
      simp [Instance.slots, Instance.labelSlots, Instance.rowsFrom]

end ItemRow

/-- The descriptor of the rows of a container, before its connections are set. -/
def Compiler.describe (c : Compiler) (ws : Workspace) (root : NodeId)
    (rows : List Row) : Descriptor where
  blockType := Text.identifier ((ws.field? root "NAME").getD "")
  lastDummyAlign := droppedAlign? rows
  message := MessagePart.message (rowParts rows)
  args := (rowParts rows).filterMap MessagePart.arg?
  inputsInline := ws.inputsInline? root
  colour := ws.hue? root
  tooltip := c.tooltip
  helpUrl := c.helpUrl

/-- Assembling succeeds exactly when the rows and the connections do. -/
theorem Compiler.assemble_eq_ok_iff {c : Compiler} {ws : Workspace} {root : NodeId}
    {d : Descriptor} :
    c.assemble ws root = .ok d ↔ ∃ rows layout, ws.rows root = .ok rows ∧
      ws.connections root = .ok layout ∧
        (c.describe ws root rows).withConnections layout = d := by
  have hassemble : c.assemble ws root = ws.rows root >>= fun rows =>
      ws.connections root >>= fun layout =>
        .ok ((c.describe ws root rows).withConnections layout) := rfl
  rw [hassemble, except_bind_eq_ok_iff]
  simp only [except_bind_eq_ok_iff, Except.ok.injEq]
  constructor
  · rintro ⟨rows, hrows, layout, hlayout, hd⟩
    exact ⟨rows, layout, hrows, hlayout, hd⟩
  · rintro ⟨rows, layout, hrows, hlayout, hd⟩
    exact ⟨rows, hrows, layout, hlayout, hd⟩

namespace Workspace

/-- The row of an input block is made of the items of its fields. -/
theorem exists_itemRow {ws : Workspace} {input : NodeId × Node × InputKind} {r : Row}
    (hnode : ws.node? input.1 = some input.2.1) (hkind : input.2.1.kind = input.2.2.block)
    (h : ws.row input = .ok r) : ∃ ir : ItemRow, r = ir.row ∧ ws.Shows input.1 ir.shown := by
  obtain ⟨id, node, kind⟩ := input
  rw [Workspace.row, except_bind_eq_ok_iff] at h
  obtain ⟨found, hfound, h⟩ := h
  obtain rfl := Except.ok.inj h
  have hfield (name : String) : ws.field? id name = node.field? name := by
    rw [field?, hnode]
    rfl
  let input : InputArg :=
    ⟨kind, inputName node kind, found.filter fun c => c ≠ .any,
      .ofField (node.field? "ALIGN")⟩
  refine ⟨⟨ws.items (ws.slot? id "FIELDS"), input⟩, ?_, ?_⟩
  · rw [fieldTokens_eq]
    rfl
  · exact
      { kind := by rw [hnode, Option.map_some]; exact congrArg some hkind
        align := by rw [hfield]; rfl
        name := by rw [hfield]; cases kind <;> rfl
        check := ⟨found, hfound, rfl⟩
        fields := (ws.shownFields_eq _).symm }

theorem Shows.name_of_dummy {ws : Workspace} {id : NodeId} {row : InstanceInput}
    (h : ws.Shows id row) (hkind : row.kind = .dummy) : row.name = none := by
  rw [h.name, if_pos hkind]

theorem exists_itemRows {ws : Workspace} {root : NodeId} {rows : List Row}
    (h : ws.rows root = .ok rows) :
    ∃ irs : List ItemRow, rows = irs.map ItemRow.row ∧
      List.Forall₂ ws.Shows (ws.inputBlocks root) (irs.map ItemRow.shown) ∧
      ∀ ir ∈ irs, ir.input.kind = .dummy → ir.input.name = none := by
  have hrows := forall₂_of_mapM h
  have hinputs : ∀ input ∈ ws.inputs root, _ := fun _ => of_mem_inputs
  rw [inputBlocks_eq]
  clear h
  generalize ws.inputs root = inputs at hrows hinputs ⊢
  induction hrows with
  | nil => exact ⟨[], rfl, .nil, by simp⟩
  | cons hrow _ ih =>
      obtain ⟨⟨hnode, hkind⟩, hinputs⟩ := List.forall_mem_cons.1 hinputs
      obtain ⟨ir, hir, hshows⟩ := exists_itemRow hnode hkind hrow
      obtain ⟨irs, hirs, hall, hname⟩ := ih hinputs
      refine ⟨ir :: irs, by rw [hir, hirs]; rfl, .cons hshows hall, ?_⟩
      intro ir' hmem
      rcases List.mem_cons.1 hmem with rfl | hmem
      · exact hshows.name_of_dummy
      · exact hname ir' hmem

end Workspace

/-- The block of a described definition, from the items of its message. -/
theorem Compiler.ofDescriptor_describe (c : Compiler) (ws : Workspace) (root : NodeId)
    (irs : List ItemRow) (layout : Connections)
    (hargs : (c.describe ws root (irs.map ItemRow.row)).args.length ≤ Word.maxUnsigned) :
    Instance.ofDescriptor ((c.describe ws root (irs.map ItemRow.row)).withConnections layout) =
      .ok {
        blockType := Text.identifier ((ws.field? root "NAME").getD "")
        inputs := Instance.rowsFrom ((droppedAlign? (irs.map ItemRow.row)).getD .left) []
          (Instance.slots false (ItemRow.message irs))
        connections := layout.present } := by
  have hparts := ItemRow.rowParts_row irs
  have hblock := Instance.ofDescriptor_message
    ((c.describe ws root (irs.map ItemRow.row)).withConnections layout)
    (ItemRow.message irs)
    (by simp [Compiler.describe, hparts])
    (by simp [Compiler.describe, hparts, List.filterMap_map])
    (by simpa using hargs)
  rw [hblock, Descriptor.connections_withConnections]
  simp [Compiler.describe]

/-- An assembled definition always describes a block. -/
theorem Compiler.exists_block_of_assemble {c : Compiler} {ws : Workspace} {root : NodeId}
    {d : Descriptor} (hd : c.assemble ws root = .ok d)
    (hargs : d.args.length ≤ Word.maxUnsigned) :
    ∃ block, Instance.ofDescriptor d = .ok block := by
  obtain ⟨rows, layout, hrows, _, rfl⟩ := Compiler.assemble_eq_ok_iff.1 hd
  obtain ⟨irs, rfl, _⟩ := Workspace.exists_itemRows hrows
  exact ⟨_, c.ofDescriptor_describe ws root irs layout (by simpa using hargs)⟩

/-- Rendering an assembled definition gives back the rows of its input blocks.
Only the check of a dummy that closes a last row with content is lost. -/
theorem ofDescriptor_assemble (c : Compiler) (ws : Workspace) (root : NodeId)
    {d : Descriptor} (hd : c.assemble ws root = .ok d)
    (hargs : d.args.length ≤ Word.maxUnsigned) :
    ∃ block rows layout,
      Instance.ofDescriptor d = .ok block ∧
      List.Forall₂ ws.Shows (ws.inputBlocks root) rows ∧
      block.inputs = InstanceInput.withoutLastCheck rows ∧
      block.blockType = Text.identifier ((ws.field? root "NAME").getD "") ∧
      ws.connections root = .ok layout ∧ block.connections = layout.present := by
  obtain ⟨rows, layout, hrows, hlayout, rfl⟩ := Compiler.assemble_eq_ok_iff.1 hd
  obtain ⟨irs, rfl, hshows, hname⟩ := Workspace.exists_itemRows hrows
  have hblock := c.ofDescriptor_describe ws root irs layout (by simpa using hargs)
  refine ⟨_, irs.map ItemRow.shown, layout, hblock, hshows, ?_, rfl, hlayout, rfl⟩
  exact ItemRow.rowsFrom_message irs hname

/-- A container with a value input and a dummy, and with percent signs, digits and a
blank among the texts of both. -/
def percentRows : Workspace where
  nodes := #[
    { kind := .container, typeName := "factory_base",
      fields := .ofList [("NAME", "3d"), ("CONNECTIONS", "BOTH")],
      slots := .ofList [("INPUTS", 1), ("TOPTYPE", 7)] },
    { kind := .valueInput, typeName := "input_value",
      fields := .ofList [("INPUTNAME", "A"), ("ALIGN", "CENTRE")],
      slots := .ofList [("FIELDS", 3), ("TYPE", 8)], parent := some 0, next := some 2 },
    { kind := .dummyInput, typeName := "input_dummy",
      fields := .ofList [("ALIGN", "RIGHT")],
      slots := .ofList [("FIELDS", 5), ("TYPE", 9)], prev := some 1 },
    { kind := .literalText, typeName := "field_static",
      fields := .ofList [("TEXT", "100%1")], parent := some 1, next := some 4 },
    { kind := .textField, typeName := "field_input",
      fields := .ofList [("FIELDNAME", "N"), ("TEXT", "%2")], prev := some 3 },
    { kind := .literalText, typeName := "field_static",
      fields := .ofList [("TEXT", " ")], parent := some 2, next := some 6 },
    { kind := .literalText, typeName := "field_static",
      fields := .ofList [("TEXT", "%")], prev := some 5 },
    { kind := .typeAtom, typeName := "type_null", parent := some 0 },
    { kind := .typeAtom, typeName := "type_null", parent := some 1 },
    { kind := .typeAtom, typeName := "type_number", valueType := some "Number",
      parent := some 2 }]
  top := [0]

/-- The descriptor of `percentRows`: the dummy at the end is left out. -/
def percentDescriptor : Descriptor where
  blockType := "_3d"
  lastDummyAlign := some .right
  message := "100%%1 %1 %2   %%"
  args := [.field (.text "N" "%2"), .input ⟨.value, some "A", none, .centre⟩]
  previousStatement := some .any
  helpUrl := defaultHelpUrl

/-- The block of `percentRows`.  Its last row has no check of its own. -/
def percentBlock : Instance where
  blockType := "_3d"
  inputs := [
    ⟨some "A", .value, .centre, none, [⟨none, .label⟩, ⟨some "N", .textInput⟩]⟩,
    ⟨none, .dummy, .right, none, [⟨none, .label⟩]⟩]
  connections := .statement (some .any) none

/-- A container with a statement that shows one field of every kind.  Among them are a
dropdown without options, a disabled label between two other labels, and a blank one. -/
def fieldRows : Workspace where
  nodes := #[
    { kind := .container, typeName := "factory_base", slots := .ofList [("INPUTS", 1)] },
    { kind := .statementInput, typeName := "input_statement",
      fields := .ofList [("INPUTNAME", "DO")],
      slots := .ofList [("FIELDS", 3), ("TYPE", 16)], parent := some 0, next := some 2 },
    { kind := .dummyInput, typeName := "input_dummy", prev := some 1 },
    { kind := .numberField, typeName := "field_number",
      fields := .ofList [("FIELDNAME", "NUM")], parent := some 1, next := some 4 },
    { kind := .angleField, typeName := "field_angle",
      fields := .ofList [("FIELDNAME", "ANG")], prev := some 3, next := some 5 },
    { kind := .literalText, typeName := "field_static",
      fields := .ofList [("TEXT", " ")], prev := some 4, next := some 6 },
    { kind := .checkboxField, typeName := "field_checkbox",
      fields := .ofList [("FIELDNAME", "CHK")], prev := some 5, next := some 7 },
    { kind := .literalText, typeName := "field_static",
      fields := .ofList [("TEXT", "a")], prev := some 6, next := some 8 },
    { kind := .literalText, typeName := "field_static", disabled := true,
      fields := .ofList [("TEXT", "b")], prev := some 7, next := some 9 },
    { kind := .literalText, typeName := "field_static",
      fields := .ofList [("TEXT", "c")], prev := some 8, next := some 10 },
    { kind := .colourField, typeName := "field_colour",
      fields := .ofList [("FIELDNAME", "COL")], prev := some 9, next := some 11 },
    { kind := .variableField, typeName := "field_variable",
      fields := .ofList [("FIELDNAME", "VAR")], prev := some 10, next := some 12 },
    { kind := .dropdownField, typeName := "field_dropdown",
      fields := .ofList [("FIELDNAME", "NONE")], prev := some 11, next := some 13 },
    { kind := .dropdownField, typeName := "field_dropdown", itemCount := 1,
      fields := .ofList [("FIELDNAME", "MENU")], prev := some 12, next := some 14 },
    { kind := .imageField, typeName := "field_image",
      fields := .ofList [("FIELDNAME", "IMG")], prev := some 13, next := some 15 },
    { kind := .textField, typeName := "field_input", prev := some 14 },
    { kind := .typeAtom, typeName := "type_number", valueType := some "Number",
      parent := some 1 }]
  top := [0]

/-- The block of `fieldRows`.  Its last row shows nothing, so its dummy is there in the
message. -/
def fieldBlock : Instance where
  blockType := ""
  inputs := [
    ⟨some "DO", .statement, .left, some (.one "Number"),
      [⟨some "NUM", .number⟩, ⟨some "ANG", .angle⟩, ⟨some "CHK", .checkbox⟩, ⟨none, .label⟩,
        ⟨some "COL", .colour⟩, ⟨some "VAR", .variablePicker⟩, ⟨some "MENU", .dropdown⟩,
        ⟨none, .image⟩, ⟨some "", .textInput⟩]⟩,
    ⟨none, .dummy, .left, none, []⟩]
  connections := .none

theorem ofDescriptor_assemble_percentRows :
    ({} : Compiler).assemble percentRows 0 = .ok percentDescriptor ∧
      percentDescriptor.args.length ≤ Word.maxUnsigned ∧
      Instance.ofDescriptor percentDescriptor = .ok percentBlock ∧
      (∃ rows, List.Forall₂ percentRows.Shows [1, 2] rows ∧
        percentBlock.inputs = InstanceInput.withoutLastCheck rows) ∧
      ∃ d, ({} : Compiler).assemble fieldRows 0 = .ok d ∧ d.args.length = 10 ∧
        Instance.ofDescriptor d = .ok fieldBlock ∧
        ∃ rows, List.Forall₂ fieldRows.Shows [1, 2] rows ∧
          fieldBlock.inputs = InstanceInput.withoutLastCheck rows := by
  have hpercent : ({} : Compiler).assemble percentRows 0 = .ok percentDescriptor := by
    decide +kernel
  have hargs : percentDescriptor.args.length ≤ Word.maxUnsigned := by decide
  have hblock : Instance.ofDescriptor percentDescriptor = .ok percentBlock := by decide +kernel
  obtain ⟨block, rows, _, hrendered, hshows, hinputs, -⟩ :=
    ofDescriptor_assemble {} percentRows 0 hpercent hargs
  obtain rfl := Except.ok.inj (hblock.symm.trans hrendered)
  have hblocks : percentRows.inputBlocks 0 = [1, 2] := by decide +kernel
  rw [hblocks] at hshows
  refine ⟨hpercent, hargs, hblock, ⟨rows, hshows, hinputs⟩, ?_⟩
  have hrendered : ((({} : Compiler).assemble fieldRows 0).toOption.map fun d =>
      (d.args.length, Instance.ofDescriptor d)) = some (10, .ok fieldBlock) := by decide +kernel
  cases hfield : ({} : Compiler).assemble fieldRows 0 with
  | error e =>
      rw [hfield] at hrendered
      cases hrendered
  | ok d =>
      rw [hfield] at hrendered
      obtain ⟨hlength, hblock⟩ := Prod.mk.inj (Option.some.inj hrendered)
      have hargs : d.args.length ≤ Word.maxUnsigned := hlength ▸ by decide
      obtain ⟨block, rows, _, hrendered, hshows, hinputs, -⟩ :=
        ofDescriptor_assemble {} fieldRows 0 hfield hargs
      obtain rfl := Except.ok.inj (hblock.symm.trans hrendered)
      have hblocks : fieldRows.inputBlocks 0 = [1, 2] := by decide +kernel
      rw [hblocks] at hshows
      exact ⟨d, rfl, hlength, hblock, rows, hshows, hinputs⟩

end BlockForge
