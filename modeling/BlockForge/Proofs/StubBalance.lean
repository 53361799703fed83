import BlockForge.Proofs.Balance
import BlockForge.Proofs.Update

/-!
Stubs are balanced source.

A stub quotes the names of fields and inputs as they are.  Everything else in it is
fixed or made of identifier characters, so a stub is balanced as long as each name it
quotes leads from inside a quoted text back inside (`Source.Quotable`).  Every line but
the first and the last leaves the brackets as they were.  An apostrophe in a name is
enough to break this.
-/

namespace BlockForge

open Source (Closed Leads Quotable)

namespace Source

/-- Identifier characters are neither quotes nor brackets and begin no comment. -/
theorem step_of_isWord {opened : List Char} {c : Char} (h : Text.isWord c = true) :
    Cursor.step ⟨.code, opened⟩ c = some ⟨.code, opened⟩ := by
  have hne (d : Char) (hd : Text.isWord d = false) : c ≠ d := by
    rintro rfl
    rw [h] at hd
    cases hd
  have hquote : isQuote c = false := by
    simp [isQuote, hne '"' (by decide), hne '\x27' (by decide), hne '\x60' (by decide)]
  have hopener : closer? c = none := by
    simp [closer?, hne '(' (by decide), hne '[' (by decide), hne '\x7b' (by decide)]
  have hcloser : isCloser c = false := by
    simp [isCloser, hne ')' (by decide), hne ']' (by decide), hne '\x7d' (by decide)]
  simp [Cursor.step, Cursor.stepCode, hquote, hopener, hcloser, hne '/' (by decide)]

theorem closed_of_isWord {text : String} (h : ∀ c ∈ text.toList, Text.isWord c = true) :
    Closed text :=
  fun _ => Leads.of_forall fun c hc => step_of_isWord (h c hc)

theorem quotable_of_isWord {text : String} (h : ∀ c ∈ text.toList, Text.isWord c = true) :
    Quotable text := by
  refine quotable_of_forall fun c hc => ⟨?_, ?_⟩
  · rintro rfl
    exact absurd (h _ hc) (by decide)
  · rintro rfl
    exact absurd (h _ hc) (by decide)

theorem Quotable.leads {text : String} (h : Quotable text) (opened : List Char) :
    Leads ⟨.text '\x27', opened⟩ text ⟨.text '\x27', opened⟩ :=
  h.below opened

/-- Lines that each lead back to a cursor, and a last one. -/
theorem leads_intercalate {a b : Cursor} {lines : List String} {last : String}
    (hlines : ∀ line ∈ lines, Leads a (line ++ "\n") a) (hlast : Leads a last b) :
    Leads a (String.intercalate "\n" (lines ++ [last])) b := by
  induction lines with
  | nil => simpa using hlast
  | cons line lines ih =>
      rw [List.cons_append, String.intercalate_cons_of_ne_nil (by simp)]
      exact (hlines line List.mem_cons_self).append
        (ih fun other hother => hlines other (List.mem_cons_of_mem line hother))

end Source

/-- The name that a stub quotes for a field. -/
def InstanceField.quoted? (field : InstanceField) : Option String :=
  if (accessorKind? field.kind).isSome then field.name else none

/-- The name that a stub quotes for an input. -/
def InstanceInput.quoted? (input : InstanceInput) : Option String :=
  if input.kind = .dummy then none else input.name

/-- The names that a stub quotes for a row may stand in a quoted text. -/
structure InstanceInput.IsQuotable (input : InstanceInput) : Prop where
  fields : ∀ field ∈ input.fields, ∀ name, field.quoted? = some name → Quotable name
  name : ∀ name, input.quoted? = some name → Quotable name

/-- The name that a stub quotes for an argument. -/
def Arg.quoted? : Arg → Option String
  | .field arg => (Instance.fieldOfArg arg).quoted?
  | .input arg => (Instance.inputOfArg arg []).quoted?

namespace StubWriter

variable {language : Language}

theorem closed_generator : Closed (generator { language }) := by
  intro opened
  cases language <;> rfl

theorem closed_variableFor {stem name : String} (hstem : Closed stem) :
    Closed (variableFor stem name) := by
  have hvar : Closed "  var " := fun _ => rfl
  have hjoin : Closed "_" := fun _ => rfl
  have hname : Closed (Text.folded name) := by
    refine Source.closed_of_isWord fun c hc => ?_
    rw [Text.folded, String.toList_ofList] at hc
    exact Text.isWord_of_mem_fold hc
  exact ((hvar.append hstem).append hjoin).append hname

/-- What the lines have in common: a variable is declared and gets a value. -/
theorem closed_declaration {stem name value : String} (hstem : Closed stem)
    (hvalue : Closed value) : Closed (variableFor stem name ++ " = " ++ value) := by
  have hequals : Closed " = " := fun _ => rfl
  exact ((closed_variableFor hstem).append hequals).append hvalue

theorem closed_fieldValue {name : String} (h : Quotable name) :
    Closed ("block.getFieldValue('" ++ name ++ "')") := by
  intro opened
  have hopen : Leads ⟨.code, opened⟩ "block.getFieldValue('"
      ⟨.text '\x27', '(' :: opened⟩ := rfl
  have hclose : Leads ⟨.text '\x27', '(' :: opened⟩ "')" ⟨.code, opened⟩ := rfl
  exact (hopen.append (h.leads _)).append hclose

theorem closed_fieldLine {field : InstanceField} {line : String}
    (hname : ∀ name, field.quoted? = some name → Quotable name)
    (h : fieldLine? { language } field = some line) : Closed line := by
  obtain ⟨name, hgiven, h⟩ := Option.bind_eq_some_iff.1 h
  obtain ⟨kind, hkind, h⟩ := Option.bind_eq_some_iff.1 h
  have hquotable : Quotable name := by
    refine hname name ?_
    rw [InstanceField.quoted?, hkind]
    exact (Option.filter_eq_some_iff.1 hgiven).1
  have hvalue := closed_fieldValue hquotable
  have hstem : Closed kind.stem := by
    intro opened
    cases kind <;> rfl
  dsimp only at h
  split at h
  next =>
    obtain rfl := Option.some.inj h
    intro opened
    have hcall : Leads ⟨.code, opened⟩ ".variableDB_.getName(" ⟨.code, '(' :: opened⟩ := rfl
    have hcomma : Closed ", " := fun _ => rfl
    have hroot : Closed defaultNamespace := fun _ => rfl
    have hclose : Leads ⟨.code, '(' :: opened⟩ ".Variables.NAME_TYPE);" ⟨.code, opened⟩ := rfl
    exact (((((closed_declaration hstem closed_generator opened).append hcall).append
      (hvalue _)).append (hcomma _)).append (hroot _)).append hclose
  next =>
    obtain rfl := Option.some.inj h
    have htest : Closed " == 'TRUE';" := fun _ => rfl
    exact (closed_declaration hstem hvalue).append htest
  next =>
    obtain rfl := Option.some.inj h
    have hend : Closed ";" := fun _ => rfl
    exact (closed_declaration hstem hvalue).append hend

theorem closed_inputLine {input : InstanceInput} {line : String}
    (hname : ∀ name, input.quoted? = some name → Quotable name)
    (h : inputLine? { language } input = some line) : Closed line := by
  obtain ⟨name, hgiven, h⟩ := Option.bind_eq_some_iff.1 h
  have hquotable (hkind : input.kind ≠ .dummy) : Quotable name := by
    refine hname name ?_
    rw [InstanceInput.quoted?, if_neg hkind]
    exact (Option.filter_eq_some_iff.1 hgiven).1
  split at h
  next hkind =>
    obtain rfl := Option.some.inj h
    intro opened
    have hstem : Closed "value" := fun _ => rfl
    have hcall : Leads ⟨.code, opened⟩ ".valueToCode(block, '"
        ⟨.text '\x27', '(' :: opened⟩ := rfl
    have hcomma : Leads ⟨.text '\x27', '(' :: opened⟩ "', " ⟨.code, '(' :: opened⟩ := rfl
    have hclose : Leads ⟨.code, '(' :: opened⟩ ".ORDER_ATOMIC);" ⟨.code, opened⟩ := rfl
    have hname := (hquotable (by simp [hkind])).leads ('(' :: opened)
    exact (((((closed_declaration hstem closed_generator opened).append hcall).append
      hname).append hcomma).append (closed_generator _)).append hclose
  next hkind =>
    obtain rfl := Option.some.inj h
    intro opened
    have hstem : Closed "statements" := fun _ => rfl
    have hcall : Leads ⟨.code, opened⟩ ".statementToCode(block, '"
        ⟨.text '\x27', '(' :: opened⟩ := rfl
    have hclose : Leads ⟨.text '\x27', '(' :: opened⟩ "');" ⟨.code, opened⟩ := rfl
    have hname := (hquotable (by simp [hkind])).leads ('(' :: opened)
    exact (((closed_declaration hstem closed_generator opened).append hcall).append
      hname).append hclose
  next => cases h

/-- The lines for a row, each with its end. -/
theorem closed_of_mem_rowLines {input : InstanceInput} {line : String}
    (hinput : input.IsQuotable) (h : line ∈ rowLines { language } input) :
    Closed (line ++ "\n") := by
  have hline : Closed line := by
    rw [rowLines, List.mem_append] at h
    rcases h with h | h
    · obtain ⟨field, hfield, h⟩ := List.mem_filterMap.1 h
      exact closed_fieldLine (hinput.fields field hfield) h
    · exact closed_inputLine hinput.name (Option.mem_toList.1 h)
  have hend : Closed "\n" := fun _ => rfl
  exact hline.append hend

theorem closed_of_mem_resultLines {hasOutput : Bool} {line : String}
    (h : line ∈ resultLines { language } hasOutput) : Closed (line ++ "\n") := by
  intro opened
  cases hasOutput with
  | true =>
      have hopen : Leads ⟨.code, opened⟩ "  return [code, " ⟨.code, '[' :: opened⟩ := rfl
      have hclose : Leads ⟨.code, '[' :: opened⟩ ".ORDER_NONE];" ⟨.code, opened⟩ := rfl
      have hend : Closed "\n" := fun _ => rfl
      simp only [resultLines, if_true, List.mem_cons, List.not_mem_nil, or_false] at h
      rcases h with rfl | rfl | rfl
      · rfl
      · rfl
      · exact ((hopen.append (closed_generator _)).append hclose).append (hend _)
  | false =>
      simp only [resultLines, Bool.false_eq_true, if_false, List.mem_cons, List.not_mem_nil,
        or_false] at h
      rcases h with rfl | rfl
      · cases language <;> rfl
      · rfl

/-- The first line of a stub. -/
def firstLine (w : StubWriter) (block : Instance) : String :=
  w.generator ++ "['" ++ block.blockType ++ "'] = function(block) \x7b"

/-- The lines between the first and the last one. -/
def bodyLines (w : StubWriter) (block : Instance) : List String :=
  block.inputs.flatMap w.rowLines ++
    ["  // TODO: Assemble " ++ w.language.name ++ " into code variable."] ++
    w.resultLines block.hasOutput

theorem write_eq (w : StubWriter) (block : Instance) :
    w.write block =
      w.firstLine block ++ "\n" ++ String.intercalate "\n" (w.bodyLines block ++ ["\x7d;"]) := by
  rw [← String.intercalate_cons_of_ne_nil (by simp)]
  simp [write, lines, firstLine, bodyLines]

theorem leads_firstLine {block : Instance} (h : Quotable block.blockType) :
    Leads ⟨.code, []⟩ (firstLine { language } block ++ "\n") ⟨.code, ['\x7b']⟩ := by
  have hopen : Leads ⟨.code, []⟩ "['" ⟨.text '\x27', ['[']⟩ := rfl
  have hclose : Leads ⟨.text '\x27', ['[']⟩ "'] = function(block) \x7b" ⟨.code, ['\x7b']⟩ := rfl
  have hend : Closed "\n" := fun _ => rfl
  exact ((((closed_generator _).append hopen).append (h.leads _)).append hclose).append (hend _)

theorem closed_of_mem_bodyLines {block : Instance} {line : String}
    (hinputs : ∀ input ∈ block.inputs, input.IsQuotable)
    (h : line ∈ bodyLines { language } block) : Closed (line ++ "\n") := by
  rw [bodyLines, List.mem_append, List.mem_append, List.mem_flatMap, List.mem_singleton] at h
  rcases h with (⟨input, hinput, hline⟩ | rfl) | hline
  · exact closed_of_mem_rowLines (hinputs input hinput) hline
  · intro opened
    cases language <;> rfl
  · exact closed_of_mem_resultLines hline

/-- A stub is balanced if its block type and all the names in it may be quoted. -/
theorem flaw?_write {block : Instance} (htype : Quotable block.blockType)
    (hinputs : ∀ input ∈ block.inputs, input.IsQuotable) :
    Source.flaw? (write { language } block) = none := by
  have hlast : Leads ⟨.code, ['\x7b']⟩ "\x7d;" ⟨.code, []⟩ := rfl
  have hrest : Leads ⟨.code, ['\x7b']⟩
      (String.intercalate "\n" (bodyLines { language } block ++ ["\x7d;"])) ⟨.code, []⟩ :=
    Source.leads_intercalate (fun _ hline => closed_of_mem_bodyLines hinputs hline _) hlast
  have hstub : Leads ⟨.code, []⟩ (write { language } block) ⟨.code, []⟩ := by
    rw [write_eq]
    exact (leads_firstLine htype).append hrest
  rw [Source.flaw?_eq_none_iff, hstub]
  rfl

end StubWriter

namespace Instance

/-- The names quoted for rows are those quoted for the slots, and for the fields
before them. -/
theorem isQuotable_of_mem_rowsFrom {lastAlign : Align} {row : List InstanceField}
    {slots : List Slot}
    (hrow : ∀ field ∈ row, ∀ name, field.quoted? = some name → Quotable name)
    (hslots : ∀ arg, .arg arg ∈ slots → ∀ name, arg.quoted? = some name → Quotable name) :
    ∀ input ∈ rowsFrom lastAlign row slots, input.IsQuotable := by
  fun_induction rowsFrom lastAlign row slots with
  | case1 => nofun
  | case2 row =>
      intro input hinput
      obtain rfl := List.mem_singleton.1 hinput
      exact ⟨hrow, fun name hname => nomatch hname⟩
  | case3 row rest ih =>
      refine ih ?_ fun arg harg => hslots arg (List.mem_cons_of_mem _ harg)
      refine List.forall_mem_append.2 ⟨hrow, List.forall_mem_singleton.2 ?_⟩
      exact fun name hname => nomatch hname
  | case4 row arg rest ih =>
      refine ih ?_ fun arg harg => hslots arg (List.mem_cons_of_mem _ harg)
      refine List.forall_mem_append.2 ⟨hrow, List.forall_mem_singleton.2 ?_⟩
      exact hslots (.field arg) List.mem_cons_self
  | case5 row arg rest ih =>
      refine List.forall_mem_cons.2 ⟨⟨hrow, hslots (.input arg) List.mem_cons_self⟩, ?_⟩
      exact ih (List.forall_mem_nil _) fun arg harg => hslots arg (List.mem_cons_of_mem _ harg)

/-- A block quotes no other names than the arguments of its descriptor. -/
theorem isQuotable_of_ofDescriptor {d : Descriptor} {block : Instance}
    (h : ofDescriptor d = .ok block)
    (hnames : ∀ arg ∈ d.args, ∀ name, arg.quoted? = some name → Quotable name) :
    ∀ input ∈ block.inputs, input.IsQuotable := by
  rw [ofDescriptor, except_bind_eq_ok_iff] at h
  obtain ⟨slots, hslots, h⟩ := h
  obtain rfl := Except.ok.inj h
  exact isQuotable_of_mem_rowsFrom (List.forall_mem_nil _)
    fun arg harg => hnames arg (mem_args_of_slotsFrom hslots harg)

end Instance

namespace Compiler

variable {c : Compiler} {ws : Workspace} {d : Descriptor}

/-- The type of a compiled block is made of identifier characters. -/
theorem isWord_blockType_of_compile (h : c.compile ws = .ok d) :
    ∀ ch ∈ d.blockType.toList, Text.isWord ch = true := by
  obtain ⟨root, hroot⟩ := exists_assemble_of_compile h
  obtain ⟨rows, layout, _, _, rfl⟩ := assemble_eq_ok_iff.1 hroot
  intro ch hch
  rw [Descriptor.blockType_withConnections] at hch
  exact Text.isWord_of_mem_identifier hch

/-- A definition that compiles gets a block, and in every language a stub that is
balanced, if the names its arguments put into the stub may stand in a quoted text. -/
theorem balanced_of_quotable (h : c.compile ws = .ok d)
    (hnames : ∀ arg ∈ d.args, ∀ name, arg.quoted? = some name → Quotable name)
    (language : Language) :
    (d.args.length ≤ Word.maxUnsigned → ∃ block, Instance.ofDescriptor d = .ok block) ∧
      ∀ block, Instance.ofDescriptor d = .ok block →
        Source.flaw? (StubWriter.write { language } block) = none := by
  constructor
  · intro hargs
    obtain ⟨root, hroot⟩ := exists_assemble_of_compile h
    exact exists_block_of_assemble hroot hargs
  · intro block hblock
    have htype : Quotable block.blockType := by
      rw [Instance.blockType_of_ofDescriptor hblock]
      exact Source.quotable_of_isWord (isWord_blockType_of_compile h)
    exact StubWriter.flaw?_write htype (Instance.isQuotable_of_ofDescriptor hblock hnames)

theorem balanced_of_quotable_percentRows :
    ({} : Compiler).compile percentRows = .ok percentDescriptor ∧
      (∀ arg ∈ percentDescriptor.args, ∀ name, arg.quoted? = some name → Quotable name) ∧
      ∃ block, Instance.ofDescriptor percentDescriptor = .ok block ∧
        Source.flaw? (StubWriter.write { language := .javaScript } block) = none := by
  have hcompile : ({} : Compiler).compile percentRows = .ok percentDescriptor := by
    decide +kernel
  have hnames : ∀ arg ∈ percentDescriptor.args, ∀ name, arg.quoted? = some name →
      Quotable name := by
    refine List.forall_mem_cons.2 ⟨?_, List.forall_mem_singleton.2 ?_⟩
    · intro name (hname : some "N" = some name)
      obtain rfl := Option.some.inj hname
      rfl
    · intro name (hname : some "A" = some name)
      obtain rfl := Option.some.inj hname
      rfl
  have hbalanced := balanced_of_quotable hcompile hnames .javaScript
  obtain ⟨block, hblock⟩ := hbalanced.1 (by decide)
  exact ⟨hcompile, hnames, block, hblock, hbalanced.2 block hblock⟩

/-- A container with one value input, which has an apostrophe in its name. -/
def apostropheInput : Workspace where
  nodes := #[
    { kind := .container, typeName := "factory_base",
      fields := .ofList [("NAME", "dial")], slots := .ofList [("INPUTS", 1)] },
    { kind := .valueInput, typeName := "input_value",
      fields := .ofList [("INPUTNAME", "it's")], parent := some 0 }]
  top := [0]

/-- The block that `apostropheInput` defines. -/
def apostropheBlock : Instance :=
  ⟨"dial", [⟨some "it's", .value, .left, none, []⟩], .none⟩

theorem lines_apostropheBlock :
    StubWriter.lines { language := .javaScript } apostropheBlock =
      ["Blockly.JavaScript['dial'] = function(block) \x7b",
       "  var value_it_s = Blockly.JavaScript.valueToCode(block, 'it's', " ++
         "Blockly.JavaScript.ORDER_ATOMIC);",
       "  // TODO: Assemble JavaScript into code variable.",
       "  var code = '...;\\n';",
       "  return code;",
       "\x7d;"] := by
  decide +kernel

/-- An apostrophe in a name leaves the stub with a text that is never closed. -/
theorem unbalanced_of_apostrophe :
    ∃ d, ({} : Compiler).compile apostropheInput = .ok d ∧
      Instance.ofDescriptor d = .ok apostropheBlock ∧
      Source.flaw? (StubWriter.write { language := .javaScript } apostropheBlock) =
        some (.openText 217) := by
  refine ⟨{ blockType := "dial", message := "%1", helpUrl := defaultHelpUrl,
            args := [.input ⟨.value, some "it's", none, .left⟩] }, ?_, ?_, ?_⟩
  · decide +kernel
  · decide +kernel
  · rw [Source.flaw?, StubWriter.write, String.toList_intercalate, lines_apostropheBlock]
    decide +kernel

end Compiler

end BlockForge
