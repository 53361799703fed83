import BlockForge.Proofs.Preview
import Mathlib.Data.List.Nodup

/-!
Previews among other definitions.

A preview registers its schema in a scope and shows the first name whose definition is
not equal to the one of before.  As long as the definitions under
the other names are equal to themselves, that name can only be the one of the schema,
so the preview depends on nothing else in the registry.

A definition that holds a number that is no number is not equal to itself.
`render_misled` shows what a preview makes of one.
-/

namespace BlockForge

/-- The numbers a field holds. -/
def FieldArg.numbers : FieldArg → List Double
  | .number _ value low high step => value :: [low, high, step].filterMap fun bound => bound
  | .angle _ degrees => [degrees]
  | .image _ width height _ => [width, height]
  | _ => []

/-- A schema that holds a number that is no number. -/
def Descriptor.HoldsNan (d : Descriptor) : Prop :=
  ∃ field, Arg.field field ∈ d.args ∧ Double.nan ∈ field.numbers

theorem Double.beq_self_of_ne {x : Double} (h : Double.nan ≠ x) : (x == x) = true :=
  (beq_self_iff x).2 h.symm

theorem FieldArg.beq_self {field : FieldArg} (h : Double.nan ∉ field.numbers) :
    (field == field) = true := by
  cases field with
  | number name value low high step =>
      have hvalue : (value == value) = true :=
        Double.beq_self_of_ne fun heq => h (by simp [numbers, heq])
      have hbound (bound : Option Double) (hmem : bound ∈ [low, high, step]) :
          (bound == bound) = true := by
        cases bound with
        | none => rfl
        | some x =>
            refine Double.beq_self_of_ne ?_
            rintro rfl
            exact h (List.mem_cons_of_mem _ (List.mem_filterMap.2 ⟨_, hmem, rfl⟩))
      change (name == name && (value == value && (low == low && (high == high &&
        step == step)))) = true
      rw [hvalue, hbound low (by simp), hbound high (by simp), hbound step (by simp)]
      simp
  | angle name degrees =>
      have hdegrees : (degrees == degrees) = true :=
        Double.beq_self_of_ne fun heq => h (by simp [numbers, heq])
      change (name == name && degrees == degrees) = true
      simp [hdegrees]
  | image src width height alt =>
      have hwidth : (width == width) = true :=
        Double.beq_self_of_ne fun heq => h (by simp [numbers, heq])
      have hheight : (height == height) = true :=
        Double.beq_self_of_ne fun heq => h (by simp [numbers, heq])
      change (src == src && (width == width && (height == height && alt == alt))) = true
      simp [hwidth, hheight]
  | _ =>
      change (_ == _ && _ == _) = true
      simp

theorem Arg.beq_self_list {args : List Arg}
    (h : ∀ field, Arg.field field ∈ args → Double.nan ∉ field.numbers) :
    (args == args) = true := by
  induction args with
  | nil => rfl
  | cons arg args ih =>
      have harg : (arg == arg) = true := by
        cases arg with
        | field field => exact FieldArg.beq_self (h field List.mem_cons_self)
        | input input => exact beq_self_eq_true input
      have hargs := ih fun field hfield => h field (List.mem_cons_of_mem arg hfield)
      rw [List.cons_beq_cons, harg, hargs]
      rfl

theorem Descriptor.beq_self {d : Descriptor} (h : ¬ d.HoldsNan) : (d == d) = true := by
  have hargs : (d.args == d.args) = true :=
    Arg.beq_self_list fun field hfield hnan => h ⟨field, hfield, hnan⟩
  change (_ == _ && (_ == _ && (_ == _ && (d.args == d.args && _)))) = true
  rw [hargs]
  simp

namespace Registry

/-- A name has changed when its definition is not equal to the one of before. -/
theorem mem_changedSince_iff {r saved : Registry} {name : String} :
    name ∈ r.changedSince saved ↔
      ∃ d, r.get? name = some d ∧ (saved.get? name == some d) = false := by
  simp only [changedSince, List.mem_map, List.mem_filter, get?, bne, Bool.not_eq_true',
    ← Table.get?_eq_some_iff (t := r.definitions), Prod.exists, exists_and_right, exists_eq_right]

theorem changedSince_ascending (r saved : Registry) :
    (r.changedSince saved).Pairwise (· < ·) :=
  r.definitions.keys_ascending.sublist (List.filter_sublist.map Prod.fst)

theorem nodup_changedSince (r saved : Registry) : (r.changedSince saved).Nodup :=
  (changedSince_ascending r saved).imp fun hlt => String.ne_of_lt hlt

/-- No definition under another name than the given one holds a number that is no
number. -/
def SoundBeside (r : Registry) (name : String) : Prop :=
  ∀ other d, other ≠ name → r.get? other = some d → ¬ d.HoldsNan

/-- Registering a schema changes at most its own name. -/
theorem changedSince_register {r : Registry} {d : Descriptor}
    (h : r.SoundBeside d.registeredName) :
    (r.register d).changedSince r =
      if (r.get? d.registeredName).any (· == d) then [] else [d.registeredName] := by
  have hown : (r.get? d.registeredName == some d) = (r.get? d.registeredName).any (· == d) := by
    cases r.get? d.registeredName <;> rfl
  have hmem (name : String) : name ∈ (r.register d).changedSince r ↔
      name = d.registeredName ∧ (r.get? d.registeredName).any (· == d) = false := by
    rw [mem_changedSince_iff, get?_register]
    by_cases hname : name = d.registeredName
    · subst hname
      simp [hown]
    · rw [if_neg hname]
      refine iff_of_false ?_ fun hsame => hname hsame.1
      rintro ⟨e, he, hchanged⟩
      have hself : (r.get? name == some e) = true := by
        rw [he]
        exact Descriptor.beq_self (h name e hname he)
      rw [hself] at hchanged
      cases hchanged
  split
  next hequal =>
    refine List.eq_nil_iff_forall_not_mem.2 ?_
    intro name hin
    rw [((hmem name).1 hin).2] at hequal
    cases hequal
  next hequal =>
    refine List.perm_singleton.1 ?_
    refine (List.perm_ext_iff_of_nodup (nodup_changedSince _ _) (List.nodup_singleton _)).2 ?_
    intro name
    rw [hmem, List.mem_singleton]
    exact and_iff_left (Bool.eq_false_iff.2 hequal)

end Registry

namespace Json

/-- No value starts with a blank. -/
theorem exists_broken_of_blank (n : Nat) {cs : List Char}
    (h : ∀ c ∈ cs, Text.isBlank c = true) :
    ∃ flaw, readValue (n + 1) cs = (.broken flaw, []) := by
  rw [readValue]
  cases hspace : skipSpace cs with
  | nil => exact ⟨.ended, rfl⟩
  | cons c rest =>
      have hc : Text.isBlank c = true :=
        h c ((List.dropWhile_sublist _).subset (hspace ▸ List.mem_cons_self))
      have hne (d : Char) (hd : Text.isBlank d = false) : c ≠ d := by
        rintro rfl
        rw [hc] at hd
        cases hd
      have hdigit : ¬ c.isDigit = true := by
        intro hdigit
        have hrange : 48 ≤ c.toNat ∧ c.toNat ≤ 57 := by
          simpa [Char.isDigit, UInt32.le_iff_toNat_le] using hdigit
        simp only [Text.isBlank, Bool.or_eq_true, Bool.and_eq_true, decide_eq_true_eq,
          beq_iff_eq] at hc
        omega
      refine ⟨.noValue, ?_⟩
      dsimp only
      rw [if_neg (hne _ (by decide)), if_neg (hne _ (by decide)), if_neg (hne _ (by decide)),
        if_neg (not_or.2 ⟨hne _ (by decide), hdigit⟩), if_neg (hne _ (by decide)),
        if_neg (hne _ (by decide)), if_neg (hne _ (by decide))]

end Json

/-- A text that holds a schema shows something. -/
theorem Descriptor.not_allBlank_of_ofText {code : String} {d : Descriptor}
    (h : Descriptor.ofText code = .ok d) : Text.allBlank code = false := by
  rw [← Bool.not_eq_true]
  intro hblank
  obtain ⟨flaw, hbroken⟩ := Json.exists_broken_of_blank (2 * code.toList.length + 1)
    (List.all_eq_true.1 hblank)
  rw [ofText, Json.readText, Json.Draft.ofText, hbroken] at h
  cases h

namespace Preview

/-- A scope in which one schema is registered shows the block of that schema, under the
schema's own name. -/
theorem ofScope_register {d : Descriptor} {r : Registry} (h : r.SoundBeside d.registeredName) :
    ofScope (r.isolate.register d) =
      if (r.get? d.registeredName).any (· == d) then .ok .unchanged
      else (Instance.ofDescriptor d).map fun block =>
        .block { block with blockType := d.registeredName } := by
  have hchanged : (r.isolate.register d).changed =
      if (r.get? d.registeredName).any (· == d) then [] else [d.registeredName] :=
    Registry.changedSince_register h
  by_cases hequal : (r.get? d.registeredName).any (· == d) = true
  · rw [if_pos hequal] at hchanged ⊢
    rw [ofScope, hchanged]
    rfl
  · rw [if_neg hequal] at hchanged ⊢
    refine ofScope_of_head? ?_ (get?_isolate_register r d)
    rw [hchanged, List.head?_cons]

/-- A preview of a schema is told by the schema and by the definition that was
registered under its name before: when that one is equal nothing is shown, and
otherwise exactly what the schema describes. -/
theorem render_of_soundBeside {code : String} {d : Descriptor}
    (h : Descriptor.ofText code = .ok d) {r : Registry} (hr : r.SoundBeside d.registeredName) :
    render code .json r =
        (if (r.get? d.registeredName).any (· == d) then .ok .unchanged
        else (Instance.ofDescriptor d).map fun block =>
          .block { block with blockType := d.registeredName }) ∧
      ∀ r' : Registry, r'.SoundBeside d.registeredName →
        r'.get? d.registeredName = r.get? d.registeredName →
          render code .json r' = render code .json r := by
  have hrender (r : Registry) : render code .json r = ofScope (r.isolate.register d) := by
    rw [render_json (Descriptor.not_allBlank_of_ofText h), passSchema_fst h]
  refine ⟨(hrender r).trans (ofScope_register hr), ?_⟩
  intro r' hr' hsame
  rw [hrender, hrender, ofScope_register hr, ofScope_register hr', hsame]

/-- A text that holds an empty schema of type `b`. -/
def plainCode : String := "\x7b\"type\":\"b\"\x7d"

/-- A registry with one definition, of type `a` and with one angle. -/
def dial (angle : Double) : Registry :=
  ({} : Registry).register
    { blockType := "a", message := "%1", args := [.field (.angle "ANGLE" angle)] }

theorem dial_soundBeside : (dial .zero).SoundBeside "b" := by
  intro other d hother hget
  rw [dial, Registry.get?_register] at hget
  split at hget
  next =>
    obtain rfl := Option.some.inj hget
    rintro ⟨field, hfield, hnan⟩
    obtain rfl : field = .angle "ANGLE" .zero := by simpa using hfield
    have hne : Double.nan ≠ .zero := by decide +kernel
    exact hne (List.mem_singleton.1 hnan)
  next => cases hget

theorem render_of_soundBeside_plainCode :
    Descriptor.ofText plainCode = .ok { blockType := "b" } ∧
      (dial .zero).SoundBeside "b" ∧ ({} : Registry).SoundBeside "b" ∧
      render plainCode .json (dial .zero) = .ok (.block ⟨"b", [], .none⟩) ∧
      render plainCode .json {} = render plainCode .json (dial .zero) := by
  have hread : Descriptor.ofText plainCode = .ok { blockType := "b" } := by decide +kernel
  have hempty : ({} : Registry).SoundBeside "b" := fun _ _ _ h => nomatch h
  have hlaw := render_of_soundBeside hread dial_soundBeside
  refine ⟨hread, dial_soundBeside, hempty, ?_, hlaw.2 {} hempty (by decide)⟩
  rw [hlaw.1]
  decide +kernel

/-- Next to a definition that holds a number that is no number, a preview shows that
definition and not the schema. -/
theorem render_misled :
    Descriptor.ofText plainCode = .ok { blockType := "b" } ∧
      (dial .nan).get? "b" = none ∧
      render plainCode .json (dial .nan) ≠
        (Instance.ofDescriptor { blockType := "b" }).map fun block =>
          .block { block with blockType := "b" } := by
  decide +kernel

end Preview

end BlockForge
