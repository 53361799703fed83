import BlockForge.Proofs.Schema.Argument
import Mathlib.Data.List.Forall2

/-!
Written schemas read back: `Descriptor.ofText_toText` gives what the text of any
schema is read as, and `Descriptor.restored_of_toText` says for which schemas that is
the schema itself.

The members of a schema are read one after the other, each into its own part, so the
proof goes along the members and not over the combinations of keys that are left out.
-/

namespace BlockForge

open Json (Draft Fault Entry Within draftMembers)

section Entries

variable {σ : Type} (entries : List (Entry σ)) (levels : Nat)

/-- Reading the members takes the parts read so far to other parts, whatever members
come after them. -/
def Enters (parts : σ) (members : List (String × Json)) (parts' : σ) : Prop :=
  ∀ rest, (draftMembers (members ++ rest)).readEntries entries levels parts =
    (draftMembers rest).readEntries entries levels parts'

variable {entries levels} {p q r : σ}

theorem Enters.nil : Enters entries levels p [] p :=
  fun _ => rfl

theorem Enters.append {ms ns : List (String × Json)} (hms : Enters entries levels p ms q)
    (hns : Enters entries levels q ns r) : Enters entries levels p (ms ++ ns) r := by
  intro rest
  rw [List.append_assoc, hms, hns]

theorem Enters.member {key : String} {value : Json} {entry : Entry σ}
    (hfind : entries.find? (fun e => e.accepts key) = some entry)
    (hset : entry.isSet p = false) (hread : entry.read levels p value.draft = .ok q) :
    Enters entries levels p [(key, value)] q := by
  intro rest
  rw [List.singleton_append, draftMembers, Json.DraftMembers.readEntries]
  simp only [bind, Except.bind, hfind, hset, hread, Bool.false_eq_true, if_false]

/-- A member that may be left out, with what its value makes of the parts. -/
theorem Enters.optional {α : Type} {key : String} {write : α → Json} {entry : Entry σ}
    {a : Option α} (set : Option α → σ)
    (hfind : entries.find? (fun e => e.accepts key) = some entry)
    (hset : entry.isSet p = false) (hnone : set none = p)
    (hread : ∀ b, a = some b → entry.read levels p (write b).draft = .ok (set (some b))) :
    Enters entries levels p (optionalMember key write a) (set a) := by
  cases a with
  | none =>
      rw [hnone]
      exact Enters.nil
  | some b => exact Enters.member hfind hset (hread b rfl)

/-- Members that are entered are all that there is to read. -/
theorem Enters.read {members : List (String × Json)} (h : Enters entries levels p members q)
    (hrequired : ∀ e ∈ entries, e.required = false) :
    (draftMembers members).readEntries entries levels p = .ok q := by
  have hfind : entries.find? (fun e => e.required && !e.isSet q) = none := by
    rw [List.find?_eq_none]
    intro e he
    simp [hrequired e he]
  have hread := h []
  rw [List.append_nil] at hread
  rw [hread, draftMembers, Json.DraftMembers.readEntries, hfind]

end Entries

theorem matching_draft {α : Type} {levels : Nat} {v : Json} (h : Within levels v)
    (type : String) {ofJson? : Json → Option α} {a : α} (ha : ofJson? v = some a) :
    matching type ofJson? levels v.draft = .ok a := by
  simp only [matching, h.toJson_draft, bind, Except.bind, ha]

theorem Constraint.read_draft (levels : Nat) (check : Constraint) :
    Constraint.read (levels + 1) check.toJson.draft = .ok check :=
  matching_draft (check.within_toJson levels) _ check.ofJson_toJson

theorem Arg.read_draft (levels : Nat) (arg : Arg) :
    Arg.read (levels + 3) arg.toJson.draft = .ok arg.settled :=
  matching_draft (arg.within_toJson levels) _ arg.ofJson_toJson

theorem Arg.read_drafts (levels : Nat) (args : List Arg) :
    (Json.draftItems (args.map Arg.toJson)).read (Arg.read (levels + 3)) =
      .ok (args.map Arg.settled) := by
  induction args with
  | nil => rfl
  | cons arg args ih =>
      rw [List.map_cons, Json.draftItems, Json.DraftItems.read, Arg.read_draft, ih]
      rfl

theorem Align.read_draft (levels : Nat) (align : Align) :
    Draft.asChoice levels Align.choice align.toJson.draft = .ok align := by
  cases align <;> rfl

namespace Descriptor

/-- The schema after it was written and read. -/
def settled (d : Descriptor) : Descriptor :=
  { d with args := d.args.map Arg.settled }

theorem asSigned_draft {hue : Int} (hlow : Word.minSigned ≤ hue) (hhigh : hue ≤ Word.maxSigned) :
    Draft.asOptional Draft.asSigned (Json.number (.integer hue)).draft = .ok (some hue) := by
  change (Draft.asInteger Word.minSigned Word.maxSigned "i64"
    (.number (.ok (.integer hue)))).map some = _
  rw [Draft.asInteger, if_pos ⟨hlow, hhigh⟩]
  rfl

/-- The members of a written schema give each part its value and leave the parts of
missing keys unset. -/
theorem enters_toJson (levels : Nat) (d : Descriptor)
    (hcolour : ∀ hue, d.colour = some hue → Word.minSigned ≤ hue ∧ hue ≤ Word.maxSigned) :
    Enters entries (levels + 4) {}
      ([("type", .text d.blockType)] ++
        optionalMember "lastDummyAlign0" Align.toJson d.lastDummyAlign ++
        [("message0", .text d.message)] ++
        (if d.args.isEmpty then [] else [("args0", .array (d.args.map Arg.toJson))]) ++
        optionalMember "inputsInline" Json.bool d.inputsInline ++
        optionalMember "output" Constraint.toJson d.output ++
        optionalMember "previousStatement" Constraint.toJson d.previousStatement ++
        optionalMember "nextStatement" Constraint.toJson d.nextStatement ++
        optionalMember "colour" (fun hue => Json.number (.integer hue)) d.colour ++
        [("tooltip", .text d.tooltip), ("helpUrl", .text d.helpUrl)])
      { blockType := some d.blockType, lastDummyAlign := d.lastDummyAlign.map some,
        message := some d.message,
        args := if d.args.isEmpty then none else some (d.args.map Arg.settled),
        inputsInline := d.inputsInline.map some, output := d.output,
        previousStatement := d.previousStatement, nextStatement := d.nextStatement,
        colour := d.colour.map some, tooltip := some d.tooltip, helpUrl := some d.helpUrl } := by
  let p₁ : Parts := { blockType := some d.blockType }
  let p₂ : Parts := { p₁ with lastDummyAlign := d.lastDummyAlign.map some }
  let p₃ : Parts := { p₂ with message := some d.message }
  let p₄ : Parts := { p₃ with
    args := if d.args.isEmpty then none else some (d.args.map Arg.settled) }
  let p₅ : Parts := { p₄ with inputsInline := d.inputsInline.map some }
  let p₆ : Parts := { p₅ with output := d.output }
  let p₇ : Parts := { p₆ with previousStatement := d.previousStatement }
  let p₈ : Parts := { p₇ with nextStatement := d.nextStatement }
  let p₉ : Parts := { p₈ with colour := d.colour.map some }
  have htype : Enters entries (levels + 4) {} [("type", .text d.blockType)] p₁ :=
    Enters.member rfl rfl rfl
  have hdummy : Enters entries (levels + 4) p₁
      (optionalMember "lastDummyAlign0" Align.toJson d.lastDummyAlign) p₂ :=
    Enters.optional (fun align => { p₁ with lastDummyAlign := align.map some }) rfl rfl rfl
      fun align _ => by cases align <;> rfl
  have hmessage : Enters entries (levels + 4) p₂ [("message0", .text d.message)] p₃ :=
    Enters.member rfl rfl rfl
  have hargs : Enters entries (levels + 4) p₃
      (if d.args.isEmpty then [] else [("args0", .array (d.args.map Arg.toJson))]) p₄ := by
    by_cases hempty : d.args.isEmpty = true
    · simp only [p₄, hempty, if_true]
      exact Enters.nil
    · simp only [p₄, hempty]
      refine Enters.member rfl rfl ?_
      change (do return { p₃ with args := some (← (Json.draftItems (d.args.map Arg.toJson)).read
        (Arg.read (levels + 3))) }) = _
      rw [Arg.read_drafts]
      rfl
  have hinline : Enters entries (levels + 4) p₄
      (optionalMember "inputsInline" Json.bool d.inputsInline) p₅ :=
    Enters.optional (fun inline => { p₄ with inputsInline := inline.map some }) rfl rfl rfl
      fun _ _ => rfl
  have houtput : Enters entries (levels + 4) p₅
      (optionalMember "output" Constraint.toJson d.output) p₆ :=
    Enters.optional (fun check => { p₅ with output := check }) rfl rfl rfl
      fun check _ => congrArg (·.map fun c => { p₅ with output := some c })
        (check.read_draft (levels + 3))
  have hprevious : Enters entries (levels + 4) p₆
      (optionalMember "previousStatement" Constraint.toJson d.previousStatement) p₇ :=
    Enters.optional (fun check => { p₆ with previousStatement := check }) rfl rfl rfl
      fun check _ => congrArg (·.map fun c => { p₆ with previousStatement := some c })
        (check.read_draft (levels + 3))
  have hnext : Enters entries (levels + 4) p₇
      (optionalMember "nextStatement" Constraint.toJson d.nextStatement) p₈ :=
    Enters.optional (fun check => { p₇ with nextStatement := check }) rfl rfl rfl
      fun check _ => congrArg (·.map fun c => { p₇ with nextStatement := some c })
        (check.read_draft (levels + 3))
  have hhue : Enters entries (levels + 4) p₈
      (optionalMember "colour" (fun hue => Json.number (.integer hue)) d.colour) p₉ :=
    Enters.optional (fun hue => { p₈ with colour := hue.map some }) rfl rfl rfl
      fun hue hsome => congrArg (·.map fun c => { p₈ with colour := some c })
        (asSigned_draft (hcolour hue hsome).1 (hcolour hue hsome).2)
  have htooltip : Enters entries (levels + 4) p₉ [("tooltip", .text d.tooltip)]
      { p₉ with tooltip := some d.tooltip } := Enters.member rfl rfl rfl
  have hhelp : Enters entries (levels + 4) { p₉ with tooltip := some d.tooltip }
      [("helpUrl", .text d.helpUrl)]
      { p₉ with tooltip := some d.tooltip, helpUrl := some d.helpUrl } :=
    Enters.member rfl rfl rfl
  exact ((((((((htype.append hdummy).append hmessage).append hargs).append hinline).append
    houtput).append hprevious).append hnext).append hhue).append (htooltip.append hhelp)

theorem entries_optional : ∀ e ∈ entries, e.required = false := by
  intro e he
  simp only [entries, List.mem_cons, List.not_mem_nil, or_false] at he
  rcases he with rfl | rfl | rfl | rfl | rfl | rfl | rfl | rfl | rfl | rfl | rfl <;> rfl

theorem within_toJson (levels : Nat) (d : Descriptor)
    (hcolour : ∀ hue, d.colour = some hue → Word.minSigned ≤ hue ∧ hue ≤ Word.maxSigned) :
    Within (levels + 5) d.toJson := by
  have hargs : WithinMembers (levels + 4)
      (if d.args.isEmpty then [] else [("args0", .array (d.args.map Arg.toJson))]) := by
    split
    next => exact withinMembers_nil _
    next =>
      refine (withinMembers_cons _ _ _ _).2 ⟨.array ?_, withinMembers_nil _⟩
      intro v hv
      obtain ⟨arg, _, rfl⟩ := List.mem_map.1 hv
      exact arg.within_toJson levels
  have hhue : WithinMembers (levels + 4)
      (optionalMember "colour" (fun hue => Json.number (.integer hue)) d.colour) := by
    cases hcase : d.colour with
    | none => exact withinMembers_nil _
    | some hue =>
        obtain ⟨hlow, hhigh⟩ := hcolour hue hcase
        have hmax : Word.maxSigned ≤ Word.maxUnsigned := by decide
        refine (withinMembers_cons _ _ _ _).2 ⟨.number ⟨hlow, ?_⟩, withinMembers_nil _⟩
        omega
  have halign (align : Align) : Within (levels + 4) align.toJson := .text _
  exact within_object (by simp [-List.isEmpty_iff, Within.text, Within.bool, halign, hargs, hhue,
    withinMembers_optionalMember, Constraint.within_toJson])

theorem read_object (levels : Nat) (members : List (String × Json)) :
    read (levels + 1) (Json.object members).draft =
      ((draftMembers members).readEntries entries levels {}).map ofParts :=
  rfl

theorem join_map_some {α : Type} (a : Option α) : (a.map some).join = a := by
  cases a <;> rfl

/-- Reading the text of a schema gives the schema up to what JSON cannot say. -/
theorem ofText_toText (d : Descriptor)
    (hcolour : ∀ hue, d.colour = some hue → Word.minSigned ≤ hue ∧ hue ≤ Word.maxSigned) :
    ofText d.toText = .ok d.settled := by
  have hentries := (enters_toJson 122 d hcolour).read entries_optional
  have hargs : (if d.args.isEmpty then none else some (d.args.map Arg.settled)).getD [] =
      d.args.map Arg.settled := by
    cases d.args <;> rfl
  have hread : read Json.nestingLimit d.toJson.draft = .ok d.settled := by
    rw [Json.nestingLimit, toJson, read_object, hentries]
    simp only [Except.map, ofParts, join_map_some, hargs, Option.getD_some, settled]
  rw [ofText, toText, Json.readText_toIndented (d.within_toJson 0 hcolour), hread]
  rfl

end Descriptor

/-- A number that came back equal, or as no number where it was not finite. -/
def Double.Restored (x y : Double) : Prop :=
  if x.isFinite then (x == y) = true else y = .nan

/-- A field that came back with equal contents.  Bounds are as absent or present as
they were, and equal where they are present. -/
def FieldArg.Restored : FieldArg → FieldArg → Prop
  | .number name value low high step, arg =>
      ∃ value' low' high' step', arg = .number name value' low' high' step' ∧
        value.Restored value' ∧ Option.Rel (fun x y => (x == y) = true) low low' ∧
        Option.Rel (fun x y => (x == y) = true) high high' ∧
        Option.Rel (fun x y => (x == y) = true) step step'
  | .angle name degrees, arg =>
      ∃ degrees', arg = .angle name degrees' ∧ degrees.Restored degrees'
  | .image src width height alt, arg =>
      ∃ width' height', arg = .image src width' height' alt ∧
        width.Restored width' ∧ height.Restored height'
  | field, arg => arg = field

def Arg.Restored : Arg → Arg → Prop
  | .field content, arg => ∃ content', arg = .field content' ∧ content.Restored content'
  | .input content, arg => arg = .input content

theorem Double.beq_settled {x : Double} (h : x.isFinite = true) : (x == x.settled) = true := by
  unfold settled
  by_cases hzero : x.isZero = true
  · rw [if_pos hzero]
    cases x with
    | nan => cases h
    | infinite negative => cases h
    | finite negative rank =>
        change ((Double.finite negative rank).isZero && zero.isZero || _) = true
        rw [hzero]
        rfl
  · rw [if_neg hzero, if_pos h, beq_self_iff]
    rintro rfl
    cases h

theorem Double.restored_settled (x : Double) : x.Restored x.settled := by
  unfold Restored
  by_cases hfinite : x.isFinite = true
  · rw [if_pos hfinite]
    exact beq_settled hfinite
  · rw [if_neg hfinite]
    cases x with
    | nan => rfl
    | infinite negative => rfl
    | finite negative rank => exact absurd rfl hfinite

theorem Double.rel_settled {x : Option Double} (h : ∀ y, x = some y → y.isFinite = true) :
    Option.Rel (fun x y => (x == y) = true) x (settled? x) := by
  cases x with
  | none => exact .none
  | some y =>
      rw [settled?, Option.filter_some_pos (h y rfl)]
      exact .some (beq_settled (h y rfl))

namespace Descriptor

/-- Schemas that JSON can say: an input check that accepts every type would read as
no check, and a bound that is not finite as no bound.  A colour is a word with a
sign. -/
structure Expressible (d : Descriptor) : Prop where
  checks : ∀ input, Arg.input input ∈ d.args → input.check ≠ some .any
  bounds : ∀ name value low high step,
    Arg.field (.number name value low high step) ∈ d.args →
      ∀ x, some x ∈ [low, high, step] → x.isFinite = true
  colour : ∀ hue, d.colour = some hue → Word.minSigned ≤ hue ∧ hue ≤ Word.maxSigned

/-- A schema that came back: the same in everything but the arguments, and with
arguments that came back in order. -/
def Restored (d d' : Descriptor) : Prop :=
  d' = { d with args := d'.args } ∧ List.Forall₂ Arg.Restored d.args d'.args

theorem Expressible.restored_settled {d : Descriptor} (h : d.Expressible) {arg : Arg}
    (harg : arg ∈ d.args) : arg.Restored arg.settled := by
  cases arg with
  | input input =>
      exact congrArg Arg.input (InputArg.settled_eq_self (h.checks input harg))
  | field field =>
      refine ⟨field.settled, rfl, ?_⟩
      cases field with
      | number name value low high step =>
          have hbounds := h.bounds name value low high step harg
          refine ⟨_, _, _, _, rfl, value.restored_settled, ?_, ?_, ?_⟩
          · apply Double.rel_settled
            intro x hx
            exact hbounds x (by simp [hx])
          · apply Double.rel_settled
            intro x hx
            exact hbounds x (by simp [hx])
          · apply Double.rel_settled
            intro x hx
            exact hbounds x (by simp [hx])
      | angle name degrees => exact ⟨_, rfl, degrees.restored_settled⟩
      | image src width height alt =>
          exact ⟨_, _, rfl, width.restored_settled, height.restored_settled⟩
      | _ => rfl

/-- Reading a written schema gives the schema back. -/
theorem restored_of_toText {d : Descriptor} (h : d.Expressible) :
    ∃ d', ofText d.toText = .ok d' ∧ d.Restored d' := by
  refine ⟨d.settled, d.ofText_toText h.colour, rfl, ?_⟩
  change List.Forall₂ Arg.Restored d.args (d.args.map Arg.settled)
  rw [List.forall₂_map_right_iff, List.forall₂_same]
  intro arg harg
  exact h.restored_settled harg

/-- A schema with an escape in its text, a list of types, a missing name and numbers
that are not finite where they may be. -/
def thermometer : Descriptor where
  blockType := "thermo\"meter\\\n"
  message := "%1 \x7f %2"
  args := [
    .field (.number "DEGREES" (.infinite true) (some .zero) none (some (.ofInt 5))),
    .input ⟨.value, none, some (.many ["Number", ""]), .right⟩]
  output := some .any
  colour := some (-7)

theorem restored_of_toText_thermometer : ∃ d', ofText thermometer.toText = .ok d' ∧
    thermometer.Restored d' := by
  refine restored_of_toText ⟨?_, ?_, ?_⟩
  · intro input hinput
    have hmem : input = ⟨.value, none, some (.many ["Number", ""]), .right⟩ := by
      simpa [thermometer] using hinput
    rw [hmem]
    decide
  · intro name value low high step hfield x hx
    have hmem : low = some .zero ∧ high = none ∧ step = some (.ofInt 5) := by
      have hfields : name = "DEGREES" ∧ value = .infinite true ∧
          low = some .zero ∧ high = none ∧ step = some (.ofInt 5) := by
        simpa [thermometer] using hfield
      exact hfields.2.2
    obtain ⟨rfl, rfl, rfl⟩ := hmem
    have hcases : x = .zero ∨ x = .ofInt 5 := by simpa using hx
    rcases hcases with hx | hx
    · rw [hx]
      decide +kernel
    · rw [hx]
      decide +kernel
  · intro hue hhue
    obtain rfl : -7 = hue := Option.some.inj hhue
    decide

end Descriptor

end BlockForge
