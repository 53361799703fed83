import BlockForge.Proofs.Counts

/-!
What a converted node says about its block.

`Says` reads everything off the block itself: its type as the converter maps it, the texts
of its fields, and the number of parts that it declares or that its fields and slots show.
The node of a block says this, in whatever way sums are added up (`says_of_node`).
-/

namespace BlockForge

/-- The text of a field value: itself, the digits of a number, or a word for anything else.
Arrays and objects have none. -/
inductive FieldText : Json → String → Prop where
  | text (s : String) : FieldText (.text s) s
  | number (n : Json.Number) : FieldText (.number n) (String.ofList n.text)
  | yes : FieldText (.bool true) "TRUE"
  | no : FieldText (.bool false) "FALSE"
  | null : FieldText .null ""

/-- The value types of the type names that have one of their own. -/
inductive BuiltinType : String → String → Prop where
  | boolean : BuiltinType "type_boolean" "Boolean"
  | number : BuiltinType "type_number" "Number"
  | string : BuiltinType "type_string" "String"
  | list : BuiltinType "type_list" "Array"

/-- The number of parts that the fields and slots of a block show.  A dropdown has options
up to the first one of which no half is there.  A group has one member more than the largest
number of a slot, in 64 bits, or none where no slot is numbered. -/
inductive Block.Shows (block : Block) : Kind → Nat → Prop where
  | options {n : Nat} (hthere : ∀ i < n, HasOption block.data.fields i)
      (hmissing : ¬ HasOption block.data.fields n) : Shows block .dropdownField n
  | members {last : Nat} (hlast : ∃ e ∈ block.slots, NumberedSlot e.1 last)
      (hmost : ∀ e ∈ block.slots, ∀ n, NumberedSlot e.1 n → n ≤ last) :
      Shows block .typeGroup (Word.next last)
  | noMember (hnone : ∀ e ∈ block.slots, ∀ n, ¬ NumberedSlot e.1 n) : Shows block .typeGroup 0
  | noParts {kind : Kind} (hdropdown : kind ≠ .dropdownField) (hgroup : kind ≠ .typeGroup) :
      Shows block kind 0

namespace Converter

/-- What a node says about its block. -/
structure Says (c : Converter) (block : Block) (node : Node) : Prop where
  /-- A type that is not mapped stands for itself. -/
  typeName : c.mapping.get? block.data.type = some node.typeName ∨
    c.mapping.get? block.data.type = none ∧ node.typeName = block.data.type
  kind : Kind.ofTypeName? node.typeName = some node.kind ∨
    Kind.ofTypeName? node.typeName = none ∧ c.strict = false ∧ node.kind = .other
  disabled : node.disabled = block.data.disabled
  field : ∀ name, Option.Rel FieldText (block.data.fields.get? name) (node.field? name)
  /-- A declared value type comes first. -/
  valueType : ∀ type, node.valueType = some type ↔ block.data.valueType = some type ∨
    block.data.valueType = none ∧ BuiltinType node.typeName type
  /-- A declared number of parts comes first. -/
  itemCount : block.data.itemCount = some node.itemCount ∨
    block.data.itemCount = none ∧ block.Shows node.kind node.itemCount

end Converter

theorem scalarText?_eq_some_iff {value : Json} {text : String} :
    scalarText? value = some text ↔ FieldText value text := by
  constructor
  · intro h
    unfold scalarText? at h
    split at h <;> cases h <;> constructor
  · rintro (_ | _ | _ | _ | _) <;> rfl

theorem builtinValueType?_eq_some_iff {name type : String} :
    builtinValueType? name = some type ↔ BuiltinType name type := by
  constructor
  · intro h
    unfold builtinValueType? at h
    split at h <;> cases h <;> constructor
  · rintro (_ | _ | _ | _) <;> rfl

namespace Block

variable {block : Block}

/-- Where all fields are scalars, each has its text. -/
theorem field_fieldTexts (h : block.compoundField? = none) (name : String) :
    Option.Rel FieldText (block.data.fields.get? name) (block.fieldTexts.get? name) := by
  rw [fieldTexts, Table.get?_map]
  cases hvalue : block.data.fields.get? name with
  | none => exact .none
  | some value =>
      have hscalar := List.find?_eq_none.1 h _ (Table.get?_eq_some_iff.1 hvalue)
      rw [Bool.not_eq_true, Option.isNone_eq_false_iff, Option.isSome_iff_exists] at hscalar
      obtain ⟨text, htext⟩ := hscalar
      rw [Option.map_some, htext]
      exact .some (scalarText?_eq_some_iff.1 htext)

theorem shows_memberCount : block.Shows .typeGroup (memberCount (block.slots.map Prod.fst)) := by
  rw [memberCount]
  cases hlast : lastMember? (block.slots.map Prod.fst) with
  | none =>
      refine .noMember fun e he n hn => ?_
      have hnone := lastMember?_eq_none_iff.1 hlast e.1 (List.mem_map_of_mem he)
      rw [typeIndex?_eq_some_iff.2 hn] at hnone
      cases hnone
  | some last =>
      obtain ⟨⟨slot, hslot, hnumber⟩, hmost⟩ := lastMember?_eq_some_iff.1 hlast
      obtain ⟨e, he, rfl⟩ := List.mem_map.1 hslot
      refine .members ⟨e, he, typeIndex?_eq_some_iff.1 hnumber⟩ fun e he n hn => ?_
      exact hmost e.1 (List.mem_map_of_mem he) n (typeIndex?_eq_some_iff.2 hn)

theorem shows_inferred (kind : Kind) : block.Shows kind (block.inferred kind) := by
  by_cases hdropdown : kind = .dropdownField
  · subst hdropdown
    exact .options (optionCount_spec block.data.fields).1 (optionCount_spec block.data.fields).2
  · by_cases hgroup : kind = .typeGroup
    · subst hgroup
      exact shows_memberCount
    · have hzero : block.inferred kind = 0 := by
        rw [inferred] <;> assumption
      rw [hzero]
      exact .noParts hdropdown hgroup

end Block

namespace Converter

variable {c : Converter} {block : Block} {node : Node}

/-- The node of a block says about the block what it should. -/
theorem says_of_node {ε : Type} {b : Build ε} (h : c.node b block = .ok node) :
    c.Says block node := by
  obtain ⟨hkind, hscalar, -, rfl⟩ := node_eq_ok_iff.1 h
  refine ⟨?_, ?_, rfl, Block.field_fieldTexts hscalar, ?_, ?_⟩
  · change _ = some (c.typeName block) ∨ _ ∧ c.typeName block = _
    rw [typeName]
    cases c.mapping.get? block.data.type with
    | none => exact .inr ⟨rfl, rfl⟩
    | some mapped => exact .inl rfl
  · change Kind.ofTypeName? (c.typeName block) = some (c.kindOf block) ∨
      Kind.ofTypeName? (c.typeName block) = none ∧ c.strict = false ∧ c.kindOf block = .other
    rw [Converter.kind] at hkind
    rw [kindOf] at hkind ⊢
    cases hname : Kind.ofTypeName? (c.typeName block) with
    | some kind => exact .inl rfl
    | none =>
        rw [hname] at hkind
        cases hstrict : c.strict with
        | false => exact .inr ⟨rfl, rfl, rfl⟩
        | true =>
            rw [hstrict] at hkind
            cases hkind
  · intro type
    change block.data.valueType.or (builtinValueType? (c.typeName block)) = some type ↔ _
    rw [← builtinValueType?_eq_some_iff, Option.or_eq_some_iff]
    exact Iff.rfl
  · rw [itemCount_look, kind_look]
    cases block.data.itemCount with
    | some count => exact .inl rfl
    | none => exact .inr ⟨rfl, block.shows_inferred _⟩

end Converter

end BlockForge
