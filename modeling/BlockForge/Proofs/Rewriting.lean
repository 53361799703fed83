import BlockForge.Proofs.Compiling
import BlockForge.Proofs.Schema.ReadBack

/-!
Rewriting a compiled schema: reading its text and writing what was read.

What JSON does to a number cannot be seen when the number is written again, so the
text of a schema changes only where a whole member is lost.  In a compiled schema that
is a step that is infinite: it counts as a step, is written as null and is read as no
step.  Nothing else is lost.
-/

namespace BlockForge

open Json (Within)

namespace Json

/-- Values that are read back have different texts. -/
theorem eq_of_toIndented_eq {v w : Json} (hv : Within nestingLimit v)
    (hw : Within nestingLimit w) (h : v.toIndented = w.toIndented) : v = w := by
  have hreads : readText v.toIndented Draft.toJson = readText w.toIndented Draft.toJson := by
    rw [h]
  rw [readText_toIndented hv, readText_toIndented hw, hv.toJson_draft, hw.toJson_draft] at hreads
  exact Except.ok.inj hreads

end Json

namespace Double

/-- A number is written as before after it was read. -/
theorem toJson_settled (x : Double) : x.settled.toJson = x.toJson := by
  unfold settled
  by_cases hzero : x.isZero = true
  · have hfinite : x.isFinite = true := by
      cases x with
      | finite negative rank => rfl
      | nan => cases hzero
      | infinite negative => cases hzero
    have hzeroInt : zero.toInt? = some 0 := by decide +kernel
    have hzeroFinite : zero.isFinite = true := by decide
    rw [if_pos hzero, toJson, toJson, if_pos hzeroFinite, if_pos hfinite, hzeroInt,
      toInt_of_isZero hzero]
    rfl
  · rw [if_neg hzero]
    by_cases hfinite : x.isFinite = true
    · rw [if_pos hfinite]
    · rw [if_neg hfinite, toJson, toJson, if_neg hfinite]
      rfl

/-- A number that may be missing is written as before unless it is there and not
finite. -/
theorem optionalMember_settled? {x : Option Double} (h : ∀ y, x = some y → y.isFinite = true)
    (key : String) :
    optionalMember key toJson (settled? x) = optionalMember key toJson x := by
  cases x with
  | none => rfl
  | some y =>
      rw [settled?, Option.filter_some_pos (h y rfl)]
      change [(key, y.settled.toJson)] = [(key, y.toJson)]
      rw [toJson_settled]

end Double

/-- The bounds of a number field are finite; its step need not be. -/
def FieldArg.BoundsFinite : FieldArg → Prop
  | .number _ _ low high _ => ∀ x, some x ∈ [low, high] → x.isFinite = true
  | _ => True

/-- A number field without a step or with a finite one. -/
def FieldArg.StepFinite : FieldArg → Prop
  | .number _ _ _ _ step => ∀ x, step = some x → x.isFinite = true
  | _ => True

/-- A field is written as before after it was read, exactly if its step is finite. -/
theorem FieldArg.toJson_settled_iff {field : FieldArg} (h : field.BoundsFinite) :
    field.settled.toJson = field.toJson ↔ field.StepFinite := by
  cases field with
  | number name value low high step =>
      have hlow := Double.optionalMember_settled? (fun x hx => h x (by simp [hx])) "min"
        (x := low)
      have hhigh := Double.optionalMember_settled? (fun x hx => h x (by simp [hx])) "max"
        (x := high)
      rw [settled, toJson, toJson, Double.toJson_settled, hlow, hhigh, Json.object.injEq,
        List.append_cancel_left_eq]
      constructor
      · rintro hstep x rfl
        rw [← Bool.not_eq_false]
        intro hinfinite
        rw [Double.settled?, Option.filter_some_neg (by simp [hinfinite])] at hstep
        cases hstep
      · intro hstep
        exact Double.optionalMember_settled? hstep "precision"
  | angle name degrees => simp [settled, toJson, StepFinite, Double.toJson_settled]
  | image src width height alt => simp [settled, toJson, StepFinite, Double.toJson_settled]
  | _ => exact iff_of_true rfl trivial

namespace Node

/-- The bounds of a compiled number field are the ones that are finite. -/
theorem boundsFinite_of_token? {node : Node} {field : FieldArg}
    (h : node.token? = some (.field field)) : field.BoundsFinite := by
  have hbound (key : String) {x : Double} (hx : node.bound? key = some x) :
      x.isFinite = true := by
    unfold bound? at hx
    dsimp only at hx
    split at hx
    next hfinite =>
      rw [← Option.some.inj hx]
      exact hfinite
    next => cases hx
  cases hkind : node.kind with
  | numberField =>
      simp only [token?, hkind] at h
      obtain rfl := FieldToken.field.inj (Option.some.inj h)
      intro x hx
      rcases List.mem_cons.1 hx with hx | hx
      · exact hbound "MIN" hx.symm
      · exact hbound "MAX" (List.mem_singleton.1 hx).symm
  | dropdownField =>
      simp only [token?, hkind] at h
      split at h
      next => cases h
      next =>
        obtain rfl := FieldToken.field.inj (Option.some.inj h)
        trivial
  | _ =>
      simp only [token?, hkind] at h
      cases h <;> trivial

end Node

namespace Descriptor

/-- Schemas differ in their text when an argument is written differently. -/
theorem toText_settled_iff {d : Descriptor}
    (hcolour : ∀ hue, d.colour = some hue → Word.minSigned ≤ hue ∧ hue ≤ Word.maxSigned) :
    d.settled.toText = d.toText ↔ ∀ arg ∈ d.args, arg.settled.toJson = arg.toJson := by
  have htext : d.settled.toText = d.toText ↔ d.settled.toJson = d.toJson := by
    constructor
    · exact Json.eq_of_toIndented_eq (d.settled.within_toJson 122 hcolour)
        (d.within_toJson 122 hcolour)
    · intro hjson
      rw [toText, toText, hjson]
  rw [htext, toJson, toJson, Json.object.injEq]
  cases hargs : d.args with
  | nil => simp [settled, hargs]
  | cons arg args => simp [settled, hargs, List.map_inj_left]

end Descriptor

namespace Compiler

/-- The text of a compiled schema can be read, and what was read is written as the same
text exactly if no step of a number field is infinite. -/
theorem rewritten_iff_of_compile {c : Compiler} {ws : Workspace} {d : Descriptor}
    (h : c.compile ws = .ok d) :
    ∃ d', Descriptor.ofText d.toText = .ok d' ∧
      (d'.toText = d.toText ↔ ∀ field, Arg.field field ∈ d.args → field.StepFinite) := by
  have hcolour : ∀ hue, d.colour = some hue → Word.minSigned ≤ hue ∧ hue ≤ Word.maxSigned :=
    fun hue => colour_of_compile h
  refine ⟨d.settled, d.ofText_toText hcolour, ?_⟩
  rw [Descriptor.toText_settled_iff hcolour]
  have hfield {field : FieldArg} (hmem : Arg.field field ∈ d.args) :
      field.settled.toJson = field.toJson ↔ field.StepFinite := by
    obtain ⟨node, hnode⟩ := exists_node_of_compile h hmem
    exact FieldArg.toJson_settled_iff (Node.boundsFinite_of_token? hnode)
  constructor
  · intro hargs field hmem
    exact (hfield hmem).1 (hargs _ hmem)
  · intro hsteps arg hmem
    cases arg with
    | field field => exact (hfield hmem).2 (hsteps field hmem)
    | input input =>
        rw [Arg.settled, InputArg.settled_eq_self (check_of_compile h hmem)]

/-- A container with one number field, of which the step is given. -/
def stepped (step : String) : Workspace where
  nodes := #[
    { kind := .container, typeName := "factory_base", fields := .ofList [("NAME", "dial")],
      slots := .ofList [("INPUTS", 1)] },
    { kind := .dummyInput, typeName := "input_dummy", slots := .ofList [("FIELDS", 2)],
      parent := some 0 },
    { kind := .numberField, typeName := "field_number",
      fields := .ofList [("FIELDNAME", "N"), ("VALUE", "ten"), ("MIN", "-Infinity"),
        ("MAX", "1e3"), ("PRECISION", step)],
      parent := some 1 }]
  top := [0]

/-- The descriptor of `stepped`: the value is no number, and there is no lower bound. -/
def steppedDescriptor (step : Double) : Descriptor where
  blockType := "dial"
  message := "%1"
  args := [.field (.number "N" .nan none (some (.ofNat 1000)) (some step))]
  helpUrl := defaultHelpUrl

theorem rewritten_iff_of_compile_stepped :
    ({} : Compiler).compile (stepped "0.5") = .ok (steppedDescriptor (.ofQuotient false 1 2)) ∧
      ∃ d', Descriptor.ofText (steppedDescriptor (.ofQuotient false 1 2)).toText = .ok d' ∧
        d'.toText = (steppedDescriptor (.ofQuotient false 1 2)).toText := by
  have hd : ({} : Compiler).compile (stepped "0.5") =
      .ok (steppedDescriptor (.ofQuotient false 1 2)) := by
    decide +kernel
  obtain ⟨d', hread, hsame⟩ := rewritten_iff_of_compile hd
  refine ⟨hd, d', hread, hsame.2 ?_⟩
  intro field hfield
  obtain rfl := Arg.field.inj (List.mem_singleton.1 hfield)
  rintro x hx
  rw [← Option.some.inj hx]
  decide +kernel

/-- An infinite step is lost when the schema is read, and the key with it. -/
theorem rewritten_of_infinite_step :
    ({} : Compiler).compile (stepped "Infinity") = .ok (steppedDescriptor (.infinite false)) ∧
      ∃ d', Descriptor.ofText (steppedDescriptor (.infinite false)).toText = .ok d' ∧
        d'.toText ≠ (steppedDescriptor (.infinite false)).toText := by
  have hd : ({} : Compiler).compile (stepped "Infinity") =
      .ok (steppedDescriptor (.infinite false)) := by
    decide +kernel
  have hcolour : ∀ hue, (steppedDescriptor (.infinite false)).colour = some hue →
      Word.minSigned ≤ hue ∧ hue ≤ Word.maxSigned :=
    fun hue hhue => nomatch hhue
  refine ⟨hd, _, Descriptor.ofText_toText _ hcolour, ?_⟩
  intro hsame
  have hargs := (Descriptor.toText_settled_iff hcolour).1 hsame _ List.mem_cons_self
  exact absurd (congrArg Json.toIndented hargs) (by decide +kernel)

end Compiler

end BlockForge
