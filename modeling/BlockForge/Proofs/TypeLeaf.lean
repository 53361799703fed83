import BlockForge.Proofs.Fallible
import BlockForge.Proofs.TypeExpression

/-!
Leaves of type trees, valid and invalid.

Encoding some leaves fails at the first one that is an invalid name (`FirstFailure`), and
otherwise gives them all.  Steps that fail in this way do so one after the other
(`FailsAt.bind`), and names that agree up to repetitions agree so behind one another.
-/

namespace BlockForge

/-- A text that is no type name: it is blank, it starts or ends with a blank, or there are
control characters in it. -/
def InvalidTypeName (text : String) : Prop :=
  (∀ c ∈ text.toList, Text.isBlank c = true) ∨
    (∃ c, (c ∈ text.toList.head? ∨ c ∈ text.toList.getLast?) ∧ Text.isBlank c = true) ∨
    ∃ c ∈ text.toList, Text.isControl c = true

theorem trimmed_ne_iff {text : String} :
    Text.trimmed text ≠ text ↔
      ∃ c, (c ∈ text.toList.head? ∨ c ∈ text.toList.getLast?) ∧ Text.isBlank c = true := by
  have htrimmed : Text.trimmed text = text ↔ Text.trim text.toList = text.toList := by
    rw [Text.trimmed, ← String.toList_inj, String.toList_ofList]
  rw [ne_eq, htrimmed, Text.trim_eq_self_iff, ← forall_and]
  simp only [← or_imp, not_forall, Bool.not_eq_false, exists_prop]

/-- The check of type names finds something exactly in the invalid ones. -/
theorem invalidTypeName_iff {text : String} :
    InvalidTypeName text ↔ ∃ reason, typeNameFlaw? text = some reason := by
  have hblank : Text.allBlank text = true ↔ ∀ c ∈ text.toList, Text.isBlank c = true := by
    rw [Text.allBlank, List.all_eq_true]
  have hcontrol : text.toList.any Text.isControl = true ↔
      ∃ c ∈ text.toList, Text.isControl c = true := List.any_eq_true
  rw [InvalidTypeName, typeNameFlaw?, ← hblank, ← trimmed_ne_iff, ← hcontrol]
  by_cases hempty : Text.allBlank text = true
  · simp [hempty]
  by_cases hends : Text.trimmed text = text
  · by_cases hcontrols : text.toList.any Text.isControl = true <;> simp [hempty, hends, hcontrols]
  · simp [hempty, hends]

instance (text : String) : Decidable (InvalidTypeName text) :=
  decidable_of_iff ((typeNameFlaw? text).isSome = true)
    (Option.isSome_iff_exists.trans invalidTypeName_iff.symm)

/-- The leaf that a type block other than a group is. -/
def Node.typeLeaf (node : Node) : TypeLeaf :=
  if node.kind = .typeOther then .typed (node.text "TYPE")
  else
    match node.valueType with
    | some name => .named name
    | none => .any

namespace TypeLeaf

/-- A leaf as schema text, unless it is a text that is no type name. -/
def encoded? : TypeLeaf → Except GenerationError String
  | .typed text =>
      match typeNameFlaw? text with
      | some reason => .error (.malformedType text reason)
      | none => .ok (encodedTypeName text)
  | leaf => .ok leaf.encoded

end TypeLeaf

theorem Node.typeNames_eq (node : Node) :
    node.typeNames = node.typeLeaf.encoded?.map fun name => [name] := by
  unfold Node.typeNames
  split
  next hkind =>
    rw [Node.typeLeaf, if_pos hkind, TypeLeaf.encoded?]
    dsimp only
    cases typeNameFlaw? (node.text "TYPE") <;> rfl
  next hkind =>
    rw [Node.typeLeaf, if_neg hkind]
    cases node.valueType <;> rfl

/-- No text among some leaves is an invalid type name. -/
def AllValid (leaves : List TypeLeaf) : Prop :=
  ∀ text, .typed text ∈ leaves → ¬ InvalidTypeName text

/-- A text among some leaves is the first one that is no type name. -/
def FirstInvalid (leaves : List TypeLeaf) (text : String) : Prop :=
  ∃ before after, leaves = before ++ .typed text :: after ∧ InvalidTypeName text ∧
    AllValid before

/-- The failure to report for some leaves: the one of the first invalid name. -/
def FirstFailure (leaves : List TypeLeaf) (e : GenerationError) : Prop :=
  ∃ text reason, FirstInvalid leaves text ∧ typeNameFlaw? text = some reason ∧
    e = .malformedType text reason

theorem allValid_append_iff {before after : List TypeLeaf} :
    AllValid (before ++ after) ↔ AllValid before ∧ AllValid after := by
  simp only [AllValid, List.mem_append, or_imp, forall_and]

theorem allValid_cons_iff (leaf : TypeLeaf) (leaves : List TypeLeaf) :
    AllValid (leaf :: leaves) ↔ AllValid [leaf] ∧ AllValid leaves :=
  (allValid_append_iff : AllValid ([leaf] ++ leaves) ↔ _)

theorem firstInvalid_cons_iff {leaf : TypeLeaf} {leaves : List TypeLeaf} {text : String} :
    FirstInvalid (leaf :: leaves) text ↔
      leaf = .typed text ∧ InvalidTypeName text ∨ AllValid [leaf] ∧ FirstInvalid leaves text := by
  constructor
  · rintro ⟨before, after, hsplit, htext, hbefore⟩
    cases before with
    | nil => exact .inl ⟨(List.cons.inj hsplit).1, htext⟩
    | cons first before =>
        obtain ⟨rfl, rfl⟩ := List.cons.inj hsplit
        obtain ⟨hleaf, hbefore⟩ := (allValid_cons_iff _ _).1 hbefore
        exact .inr ⟨hleaf, before, after, rfl, htext, hbefore⟩
  · rintro (⟨rfl, htext⟩ | ⟨hleaf, before, after, rfl, htext, hbefore⟩)
    · exact ⟨[], leaves, rfl, htext, by simp [AllValid]⟩
    · exact ⟨leaf :: before, after, rfl, htext, (allValid_cons_iff _ _).2 ⟨hleaf, hbefore⟩⟩

@[simp] theorem not_firstInvalid_nil {text : String} : ¬ FirstInvalid [] text := by
  simp [FirstInvalid]

theorem firstInvalid_singleton_iff {leaf : TypeLeaf} {text : String} :
    FirstInvalid [leaf] text ↔ leaf = .typed text ∧ InvalidTypeName text := by
  simp [firstInvalid_cons_iff]

/-- The first invalid name of two lists is that of the first one, unless it has none. -/
theorem firstInvalid_append_iff {before after : List TypeLeaf} {text : String} :
    FirstInvalid (before ++ after) text ↔
      FirstInvalid before text ∨ AllValid before ∧ FirstInvalid after text := by
  induction before with
  | nil => simp [AllValid]
  | cons leaf before ih =>
      rw [List.cons_append, firstInvalid_cons_iff, firstInvalid_cons_iff, ih,
        allValid_cons_iff leaf before, and_or_left, or_assoc, and_assoc]

/-- There is a first invalid name exactly when there is an invalid one. -/
theorem exists_firstInvalid_iff {leaves : List TypeLeaf} :
    (∃ text, FirstInvalid leaves text) ↔ ∃ text, .typed text ∈ leaves ∧ InvalidTypeName text := by
  constructor
  · rintro ⟨text, before, after, rfl, htext, -⟩
    exact ⟨text, List.mem_append_right _ List.mem_cons_self, htext⟩
  · rintro ⟨text, hmem, htext⟩
    induction leaves with
    | nil => cases hmem
    | cons leaf leaves ih =>
        by_cases hleaf : AllValid [leaf]
        · have hrest : .typed text ∈ leaves := by
            rcases List.mem_cons.1 hmem with rfl | hmem
            · exact absurd htext (hleaf text List.mem_cons_self)
            · exact hmem
          obtain ⟨first, hfirst⟩ := ih hrest
          exact ⟨first, firstInvalid_cons_iff.2 (.inr ⟨hleaf, hfirst⟩)⟩
        · simp only [AllValid, List.mem_singleton, not_forall, not_not] at hleaf
          obtain ⟨first, rfl, hfirst⟩ := hleaf
          exact ⟨first, firstInvalid_cons_iff.2 (.inl ⟨rfl, hfirst⟩)⟩

theorem FirstInvalid.exists_failure {leaves : List TypeLeaf} {text : String}
    (h : FirstInvalid leaves text) :
    ∃ reason, FirstFailure leaves (.malformedType text reason) := by
  obtain ⟨before, after, hsplit, htext, hbefore⟩ := h
  obtain ⟨reason, hreason⟩ := invalidTypeName_iff.1 htext
  exact ⟨reason, text, reason, ⟨before, after, hsplit, htext, hbefore⟩, hreason, rfl⟩

theorem FirstFailure.firstInvalid {leaves : List TypeLeaf} {text reason : String}
    (h : FirstFailure leaves (.malformedType text reason)) : FirstInvalid leaves text := by
  obtain ⟨text', reason', hfirst, -, heq⟩ := h
  obtain ⟨rfl, rfl⟩ := GenerationError.malformedType.inj heq
  exact hfirst

/-- There is nothing to report exactly when all names are valid. -/
theorem exists_firstFailure_iff {leaves : List TypeLeaf} :
    (∃ e, FirstFailure leaves e) ↔ ¬ AllValid leaves := by
  have hsome : ¬ AllValid leaves ↔ ∃ text, FirstInvalid leaves text := by
    rw [exists_firstInvalid_iff]
    simp only [AllValid, not_forall, not_not, exists_prop]
  rw [hsome]
  constructor
  · rintro ⟨e, text, reason, hfirst, -, -⟩
    exact ⟨text, hfirst⟩
  · rintro ⟨text, hfirst⟩
    obtain ⟨reason, hfailure⟩ := hfirst.exists_failure
    exact ⟨_, hfailure⟩

theorem firstFailure_append_iff {before after : List TypeLeaf} {e : GenerationError} :
    FirstFailure (before ++ after) e ↔
      FirstFailure before e ∨ AllValid before ∧ FirstFailure after e := by
  simp only [FirstFailure, firstInvalid_append_iff, or_and_right, exists_or, and_assoc,
    exists_and_left]

/-- A computation fails exactly at the first invalid name of some leaves. -/
def FailsAt {α : Type} (x : Except GenerationError α) (leaves : List TypeLeaf) : Prop :=
  ∀ e, x = .error e ↔ FirstFailure leaves e

namespace FailsAt

variable {α β : Type} {x : Except GenerationError α} {f : α → Except GenerationError β}
  {leaves more : List TypeLeaf}

theorem ok (a : α) : FailsAt (.ok a) [] := by
  intro e
  simp [FirstFailure]

theorem exists_ok_iff (h : FailsAt x leaves) : (∃ a, x = .ok a) ↔ AllValid leaves := by
  rw [← not_iff_not, ← exists_firstFailure_iff, ← exists_congr h]
  cases x <;> simp

/-- One computation after another one fails at the leaves of both in this order. -/
theorem bind (hx : FailsAt x leaves) (hf : ∀ a, x = .ok a → FailsAt (f a) more) :
    FailsAt (x >>= f) (leaves ++ more) := by
  intro e
  rw [except_bind_eq_error_iff, firstFailure_append_iff, hx e, ← hx.exists_ok_iff]
  refine or_congr_right ⟨?_, ?_⟩
  · rintro ⟨a, ha, he⟩
    exact ⟨⟨a, ha⟩, (hf a ha e).1 he⟩
  · rintro ⟨⟨a, ha⟩, hfailure⟩
    exact ⟨a, ha, (hf a ha e).2 hfailure⟩

/-- What is made of a result does not fail. -/
theorem bind_ok (hx : FailsAt x leaves) (f : α → β) :
    FailsAt (x >>= fun a => .ok (f a)) leaves := by
  have h := hx.bind fun a _ => ok (f a)
  rwa [List.append_nil] at h

end FailsAt

theorem TypeLeaf.failsAt_encoded? (leaf : TypeLeaf) : FailsAt leaf.encoded? [leaf] := by
  intro e
  simp only [FirstFailure, firstInvalid_singleton_iff]
  cases leaf with
  | typed text =>
      rw [encoded?]
      cases hflaw : typeNameFlaw? text with
      | none => simp [hflaw]
      | some reason =>
          have htext : InvalidTypeName text := invalidTypeName_iff.2 ⟨reason, hflaw⟩
          simp [hflaw, htext, eq_comm]
  | named other => simp [encoded?]
  | any => simp [encoded?]

theorem TypeLeaf.encoded?_eq_ok {leaf : TypeLeaf} (h : AllValid [leaf]) :
    leaf.encoded? = .ok leaf.encoded := by
  cases leaf with
  | typed text =>
      have hvalid : typeNameFlaw? text = none := by
        have hnot := h text List.mem_cons_self
        rwa [invalidTypeName_iff, ← Option.ne_none_iff_exists', not_ne_iff] at hnot
      rw [encoded?, hvalid]
      rfl
  | named other => rfl
  | any => rfl

/-- Encoding leaves stops at the first invalid name. -/
theorem failsAt_mapM_encoded? (leaves : List TypeLeaf) :
    FailsAt (leaves.mapM TypeLeaf.encoded?) leaves := by
  induction leaves with
  | nil => exact FailsAt.ok []
  | cons leaf leaves ih =>
      rw [List.mapM_cons]
      exact leaf.failsAt_encoded?.bind fun name _ => ih.bind_ok (name :: ·)

/-- Leaves can all be encoded when none of them is an invalid name. -/
theorem mapM_encoded?_eq_ok {leaves : List TypeLeaf} (h : AllValid leaves) :
    leaves.mapM TypeLeaf.encoded? = .ok (leaves.map TypeLeaf.encoded) := by
  refine mapM_eq_ok fun leaf hleaf => TypeLeaf.encoded?_eq_ok fun text htext => ?_
  rw [List.mem_singleton] at htext
  exact h text (htext ▸ hleaf)

theorem map_eraseDups_twice (names : Except GenerationError (List String)) :
    (names.map List.eraseDups).map List.eraseDups = names.map List.eraseDups := by
  cases names with
  | error e => rfl
  | ok names => exact congrArg Except.ok (eraseDups_eraseDups names)

/-- Names that are the same up to repetitions are so behind one another. -/
theorem map_eraseDups_append {x x' y y' : Except GenerationError (List String)}
    (hx : x.map List.eraseDups = x'.map List.eraseDups)
    (hy : y.map List.eraseDups = y'.map List.eraseDups) :
    (do return (← x) ++ (← y) : Except GenerationError (List String)).map List.eraseDups =
      (do return (← x') ++ (← y') : Except GenerationError (List String)).map List.eraseDups := by
  cases x with
  | error e =>
      cases x' with
      | error e' =>
          obtain rfl := Except.error.inj hx
          rfl
      | ok _ => cases hx
  | ok a =>
      cases x' with
      | error _ => cases hx
      | ok a' =>
          have ha : a.eraseDups = a'.eraseDups := Except.ok.inj hx
          cases y with
          | error e =>
              cases y' with
              | error e' =>
                  obtain rfl := Except.error.inj hy
                  rfl
              | ok _ => cases hy
          | ok b =>
              cases y' with
              | error _ => cases hy
              | ok b' =>
                  have hb : b.eraseDups = b'.eraseDups := Except.ok.inj hy
                  have happend : (a ++ b).eraseDups = (a' ++ b').eraseDups := by
                    rw [eraseDups_append, ha, hb, ← eraseDups_append]
                  exact congrArg Except.ok happend

/-- Steps that give the same names up to repetitions give so together. -/
theorem map_eraseDups_flatMap {members : Nat → List TypeLeaf}
    {names : Nat → Except GenerationError (List String)} {is : List Nat}
    (h : ∀ i ∈ is, (names i).map List.eraseDups =
      ((members i).mapM TypeLeaf.encoded?).map List.eraseDups) :
    ((is.mapM names).map List.flatten).map List.eraseDups =
      ((is.flatMap members).mapM TypeLeaf.encoded?).map List.eraseDups := by
  induction is with
  | nil => rfl
  | cons i is ih =>
      have hi := h i List.mem_cons_self
      have his := ih fun j hj => h j (List.mem_cons_of_mem i hj)
      have hflatten : ((i :: is).mapM names).map List.flatten =
          (do return (← names i) ++ (← (is.mapM names).map List.flatten)) := by
        rw [List.mapM_cons]
        cases names i with
        | error e => rfl
        | ok a => cases is.mapM names <;> rfl
      rw [List.flatMap_cons, List.mapM_append, hflatten]
      exact map_eraseDups_append hi his

end BlockForge
