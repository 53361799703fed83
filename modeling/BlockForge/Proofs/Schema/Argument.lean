import BlockForge.Proofs.Schema.Number

/-!
The arguments of a schema, written as JSON and matched again.

Besides what happens to its numbers, an argument loses only a check that accepts
every type: on an input that is written as null, which reads as no check.
-/

namespace BlockForge

open Json (Within)

theorem mapM_text (names : List String) :
    (names.map Json.text).mapM Json.text? = some names := by
  induction names with
  | nil => rfl
  | cons name names ih =>
      rw [List.map_cons, List.mapM_cons, ih]
      rfl

theorem mapM_pair (options : List (String × String)) :
    (options.map optionToJson).mapM Json.pair? = some options := by
  induction options with
  | nil => rfl
  | cons option options ih =>
      rw [List.map_cons, List.mapM_cons, ih]
      rfl

theorem Constraint.ofJson_toJson (check : Constraint) :
    Constraint.ofJson? check.toJson = some check := by
  cases check with
  | any => rfl
  | one name => rfl
  | many names =>
      rw [Constraint.toJson, Constraint.ofJson?, mapM_text]
      rfl

theorem Constraint.within_toJson (levels : Nat) (check : Constraint) :
    Within (levels + 1) check.toJson := by
  cases check with
  | any => exact .null
  | one name => exact .text name
  | many names =>
      refine .array ?_
      intro v hv
      obtain ⟨name, _, rfl⟩ := List.mem_map.1 hv
      exact .text name

/-- What a field is after it was written and read. -/
def FieldArg.settled : FieldArg → FieldArg
  | .number name value low high step =>
      .number name value.settled (Double.settled? low) (Double.settled? high)
        (Double.settled? step)
  | .angle name degrees => .angle name degrees.settled
  | .image src width height alt => .image src width.settled height.settled alt
  | arg => arg

/-- What an input is after it was written and read. -/
def InputArg.settled (input : InputArg) : InputArg :=
  { input with check := input.check.filter (· ≠ .any) }

theorem InputArg.settled_eq_self {input : InputArg} (h : input.check ≠ some .any) :
    input.settled = input := by
  obtain ⟨kind, name, check, align⟩ := input
  have hkept : check.filter (· ≠ .any) = check := by
    cases check with
    | none => rfl
    | some check => exact Option.filter_some_pos (decide_eq_true (by simpa using h))
  rw [settled, hkept]

def Arg.settled : Arg → Arg
  | .field arg => .field arg.settled
  | .input arg => .input arg.settled

/-- The value of the first member under a key. -/
def valueOf (members : List (String × Json)) (key : String) : Option Json :=
  (members.find? fun m => m.1 == key).map Prod.snd

@[simp] theorem valueOf_nil (key : String) : valueOf [] key = none := rfl

@[simp] theorem valueOf_cons (k key : String) (v : Json) (rest : List (String × Json)) :
    valueOf ((k, v) :: rest) key = if k = key then some v else valueOf rest key := by
  unfold valueOf
  by_cases h : k = key <;> simp [h]

@[simp] theorem valueOf_optionalMember {α : Type} (k key : String) (write : α → Json)
    (a : Option α) (rest : List (String × Json)) :
    valueOf (optionalMember k write a ++ rest) key =
      if k = key then (a.map write).or (valueOf rest key) else valueOf rest key := by
  cases a with
  | none => simp [optionalMember]
  | some a => simp [optionalMember]

@[simp] theorem valueOf_optionalMember_nil {α : Type} (k key : String) (write : α → Json)
    (a : Option α) :
    valueOf (optionalMember k write a) key = if k = key then a.map write else none := by
  have h := valueOf_optionalMember k key write a []
  simpa using h

theorem sublist_optionalMember {α : Type} (k : String) (write : α → Json) (a : Option α)
    {rest : List (String × Json)} {keys : List String}
    (h : (rest.map Prod.fst).Sublist keys) :
    ((optionalMember k write a ++ rest).map Prod.fst).Sublist (k :: keys) := by
  cases a with
  | none => exact h.cons k
  | some a => exact h.cons_cons k

/-- Members whose keys come in order and once each are found by their keys. -/
theorem knownMembers_of_sublist {keys : List String} {members : List (String × Json)}
    (hkeys : keys.Nodup) (h : (members.map Prod.fst).Sublist keys) :
    knownMembers? keys members = some (valueOf members) := by
  have hknown : members.filter (fun m => keys.contains m.1) = members := by
    rw [List.filter_eq_self]
    intro m hm
    exact List.contains_iff_mem.2 (h.subset (List.mem_map_of_mem hm))
  rw [knownMembers?, hknown]
  apply if_pos
  exact h.nodup hkeys

theorem FieldType.keys_nodup (type : FieldType) : type.keys.Nodup := by
  cases type <;> decide

theorem FieldType.type_not_mem_keys (type : FieldType) : "type" ∉ type.keys := by
  cases type <;> decide

/-- The type of a field is read before the members that depend on it. -/
theorem FieldArg.ofJson_tagged (tag : Json) {members : List (String × Json)}
    (hothers : ∀ m ∈ members, m.1 ≠ "type") :
    FieldArg.ofJson? (.object (("type", tag) :: members)) =
      (FieldType.ofJson? tag).bind fun type =>
        (knownMembers? type.keys (("type", tag) :: members)).bind type.read? := by
  have hfilter : (("type", tag) :: members).filter (fun m => ["type"].contains m.1) =
      [("type", tag)] := by
    rw [List.filter_cons_of_pos rfl, List.filter_eq_nil_iff.2]
    intro m hm
    simpa using hothers m hm
  have htag : knownMembers? ["type"] (("type", tag) :: members) =
      some (valueOf [("type", tag)]) := by
    rw [knownMembers?, hfilter]
    exact if_pos (List.pairwise_singleton _ _)
  rw [FieldArg.ofJson?, htag]
  rfl

/-- A field is read from the members after its type, which are told apart by key. -/
theorem FieldArg.ofJson_object {name : String} {type : FieldType}
    {members : List (String × Json)} (hname : FieldType.ofName? name = some type)
    (hkeys : (members.map Prod.fst).Sublist type.keys) :
    FieldArg.ofJson? (.object (("type", .text name) :: members)) =
      type.read? (valueOf members) := by
  have hothers : ∀ m ∈ members, m.1 ≠ "type" := by
    intro m hm heq
    apply type.type_not_mem_keys
    rw [← heq]
    exact hkeys.subset (List.mem_map_of_mem hm)
  have hrest : knownMembers? type.keys (("type", .text name) :: members) =
      some (valueOf members) := by
    rw [← knownMembers_of_sublist type.keys_nodup hkeys, knownMembers?, knownMembers?,
      List.filter_cons_of_neg (by simpa using type.type_not_mem_keys)]
  have htype : FieldType.ofJson? (.text name) = some type := hname
  rw [FieldArg.ofJson_tagged _ hothers, htype, Option.bind_some, hrest, Option.bind_some]

theorem FieldArg.ofJson_toJson (arg : FieldArg) :
    FieldArg.ofJson? arg.toJson = some arg.settled := by
  cases arg with
  | text name content =>
      rw [FieldArg.toJson, FieldArg.ofJson_object rfl (List.Sublist.refl _)]
      rfl
  | number name value low high step =>
      let bounds := optionalMember "min" Double.toJson low ++
        (optionalMember "max" Double.toJson high ++
          (optionalMember "precision" Double.toJson step ++ []))
      let members := ("name", Json.text name) :: ("value", value.toJson) :: bounds
      have hbounds : (bounds.map Prod.fst).Sublist ["min", "max", "precision"] :=
        sublist_optionalMember _ _ _ (sublist_optionalMember _ _ _
          (sublist_optionalMember _ _ _ (List.Sublist.refl _)))
      have hkeys : (members.map Prod.fst).Sublist FieldType.number.keys :=
        (hbounds.cons_cons "value").cons_cons "name"
      have hjson : FieldArg.toJson (.number name value low high step) =
          .object (("type", .text "field_number") :: members) := by
        simp [FieldArg.toJson, members, bounds]
      rw [hjson, FieldArg.ofJson_object rfl hkeys]
      simp [members, bounds, FieldType.read?, Json.text?, Double.doubleOrNan_toJson,
        Double.optional_toJson, FieldArg.settled]
  | angle name degrees =>
      rw [FieldArg.toJson, FieldArg.ofJson_object rfl (List.Sublist.refl _)]
      simp [FieldType.read?, Json.text?, Double.doubleOrNan_toJson, FieldArg.settled]
  | checkbox name checked =>
      rw [FieldArg.toJson, FieldArg.ofJson_object rfl (List.Sublist.refl _)]
      rfl
  | colour name shade =>
      rw [FieldArg.toJson, FieldArg.ofJson_object rfl (List.Sublist.refl _)]
      rfl
  | variablePicker name selected =>
      change FieldArg.ofJson? (.object (("type", .text "field_variable") ::
        [("name", .text name), ("variable", _)])) = _
      rw [FieldArg.ofJson_object rfl (List.Sublist.refl _)]
      cases selected <;> rfl
  | dropdown name options =>
      rw [FieldArg.toJson, FieldArg.ofJson_object rfl (List.Sublist.refl _)]
      change (do some (FieldArg.dropdown name
        (← (options.map optionToJson).mapM Json.pair?))) = _
      rw [mapM_pair]
      rfl
  | image src width height alt =>
      rw [FieldArg.toJson, FieldArg.ofJson_object rfl (List.Sublist.refl _)]
      simp [FieldType.read?, Json.text?, Double.doubleOrNan_toJson, FieldArg.settled]
  | label name content =>
      have hkeys := sublist_optionalMember "name" Json.text name
        (List.Sublist.refl ([("text", Json.text content)].map Prod.fst))
      rw [FieldArg.toJson, List.append_assoc, List.singleton_append,
        FieldArg.ofJson_object rfl hkeys]
      cases name <;> rfl

theorem InputKind.ofName_typeName (kind : InputKind) :
    InputKind.ofName? kind.typeName = some kind := by
  cases kind <;> rfl

theorem InputArg.optional_name (name : Option String) :
    Json.optional? Json.text? (name.map Json.text) = some name := by
  cases name <;> rfl

theorem InputArg.optional_check (check : Option Constraint) :
    Json.optional? Constraint.ofJson? (check.map Constraint.toJson) =
      some (check.filter (· ≠ .any)) := by
  cases check with
  | none => rfl
  | some check =>
      cases check with
      | any => rfl
      | one name => rfl
      | many names =>
          change (Constraint.ofJson? (Constraint.many names).toJson).map some = _
          rw [Constraint.ofJson_toJson]
          rfl

def alignMembers (align : Align) : List (String × Json) :=
  if align.isLeft then [] else [("align", align.toJson)]

/-- The members of an input after its type. -/
def InputArg.members (input : InputArg) : List (String × Json) :=
  optionalMember "name" Json.text input.name ++
    (optionalMember "check" Constraint.toJson input.check ++ alignMembers input.align)

theorem InputArg.toJson_eq (input : InputArg) :
    input.toJson = .object (("type", .text input.kind.typeName) :: input.members) := by
  simp [InputArg.toJson, InputArg.members, alignMembers]

theorem InputArg.members_sublist (input : InputArg) :
    (input.members.map Prod.fst).Sublist ["name", "check", "align"] := by
  have halign : ((alignMembers input.align).map Prod.fst).Sublist ["align"] := by
    cases input.align <;> decide
  exact sublist_optionalMember _ _ _ (sublist_optionalMember _ _ _ halign)

/-- No type of a field is named as an input is. -/
theorem FieldArg.ofJson_inputArg (input : InputArg) : FieldArg.ofJson? input.toJson = none := by
  have hothers : ∀ m ∈ input.members, m.1 ≠ "type" := by
    intro m hm heq
    have hmem : m.1 ∈ ["name", "check", "align"] :=
      input.members_sublist.subset (List.mem_map_of_mem hm)
    rw [heq] at hmem
    exact absurd hmem (by decide)
  have htype : FieldType.ofJson? (.text input.kind.typeName) = none := by
    cases input.kind <;> rfl
  rw [InputArg.toJson_eq, FieldArg.ofJson_tagged _ hothers, htype]
  rfl

theorem valueOf_alignMembers (align : Align) {key : String} (h : key ≠ "align") :
    valueOf (alignMembers align) key = none := by
  unfold alignMembers
  split
  next => rfl
  next => rw [valueOf_cons, if_neg (Ne.symm h), valueOf_nil]

theorem InputArg.ofJson_toJson (input : InputArg) :
    InputArg.ofJson? input.toJson = some input.settled := by
  have hkeys : ((("type", Json.text input.kind.typeName) :: input.members).map
      Prod.fst).Sublist InputArg.keys := input.members_sublist.cons_cons "type"
  have hkind : choiceOfJson? InputKind.ofName? (.text input.kind.typeName) =
      some input.kind := input.kind.ofName_typeName
  have hname : valueOf input.members "name" = input.name.map Json.text := by
    simp [InputArg.members, valueOf_alignMembers]
  have hcheck : valueOf input.members "check" = input.check.map Constraint.toJson := by
    simp [InputArg.members, valueOf_alignMembers]
  have halign : valueOf input.members "align" = valueOf (alignMembers input.align) "align" := by
    simp [InputArg.members]
  rw [InputArg.toJson_eq, InputArg.ofJson?, knownMembers_of_sublist (by decide) hkeys]
  simp only [InputArg.read?, valueOf_cons, String.reduceEq, if_true, if_false, hname, hcheck,
    halign, InputArg.optional_name, InputArg.optional_check, hkind, Option.bind_eq_bind,
    Option.bind_some]
  obtain ⟨kind, name, check, align⟩ := input
  cases align <;> rfl

theorem Arg.ofJson_toJson (arg : Arg) : Arg.ofJson? arg.toJson = some arg.settled := by
  cases arg with
  | field arg =>
      rw [Arg.toJson, Arg.ofJson?, FieldArg.ofJson_toJson]
      rfl
  | input arg =>
      rw [Arg.toJson, Arg.ofJson?, FieldArg.ofJson_inputArg, InputArg.ofJson_toJson]
      rfl

/-- Members whose values are read back inside so many levels. -/
def WithinMembers (levels : Nat) (members : List (String × Json)) : Prop :=
  ∀ m ∈ members, Within levels m.2

@[simp] theorem withinMembers_nil (levels : Nat) : WithinMembers levels [] :=
  fun _ hm => nomatch hm

@[simp] theorem withinMembers_cons (levels : Nat) (k : String) (v : Json)
    (rest : List (String × Json)) :
    WithinMembers levels ((k, v) :: rest) ↔ Within levels v ∧ WithinMembers levels rest :=
  List.forall_mem_cons

@[simp] theorem withinMembers_append (levels : Nat) (as bs : List (String × Json)) :
    WithinMembers levels (as ++ bs) ↔ WithinMembers levels as ∧ WithinMembers levels bs :=
  List.forall_mem_append

theorem withinMembers_optionalMember {α : Type} {levels : Nat} {write : α → Json}
    (key : String) (a : Option α) (h : ∀ b, Within levels (write b)) :
    WithinMembers levels (optionalMember key write a) := by
  cases a with
  | none => exact withinMembers_nil levels
  | some b => exact (withinMembers_cons levels key (write b) []).2 ⟨h b, withinMembers_nil levels⟩

theorem within_object {levels : Nat} {members : List (String × Json)}
    (h : WithinMembers levels members) : Within (levels + 1) (.object members) :=
  .object h

theorem within_optionToJson (levels : Nat) (option : String × String) :
    Within (levels + 1) (optionToJson option) := by
  refine .array ?_
  intro v hv
  rcases List.mem_cons.1 hv with rfl | hv
  · exact .text option.1
  · rw [List.mem_singleton.1 hv]
    exact .text option.2

theorem within_options (levels : Nat) (options : List (String × String)) :
    Within (levels + 2) (.array (options.map optionToJson)) := by
  refine .array ?_
  intro v hv
  obtain ⟨option, _, rfl⟩ := List.mem_map.1 hv
  exact within_optionToJson levels option

theorem FieldArg.within_toJson (levels : Nat) (arg : FieldArg) :
    Within (levels + 3) arg.toJson := by
  cases arg with
  | variablePicker name selected =>
      cases selected <;> exact within_object (by simp [Within.text, Within.null])
  | dropdown name options =>
      exact within_object (by simp [Within.text, within_options])
  | _ =>
      exact within_object (by simp [Within.text, Within.bool, Double.within_toJson,
        withinMembers_optionalMember])

theorem InputArg.within_toJson (levels : Nat) (input : InputArg) :
    Within (levels + 2) input.toJson := by
  have halign : WithinMembers (levels + 1) (alignMembers input.align) := by
    unfold alignMembers
    split
    next => exact withinMembers_nil _
    next => simp [Align.toJson, Within.text]
  rw [InputArg.toJson_eq]
  exact within_object (by simp [InputArg.members, Within.text, halign,
    withinMembers_optionalMember, Constraint.within_toJson])

theorem Arg.within_toJson (levels : Nat) (arg : Arg) : Within (levels + 3) arg.toJson := by
  cases arg with
  | field arg => exact arg.within_toJson levels
  | input arg => exact arg.within_toJson (levels + 1)

end BlockForge
