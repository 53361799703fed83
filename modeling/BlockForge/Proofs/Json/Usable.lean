import BlockForge.Json.Reader
import BlockForge.Proofs.Fallible

/-!
Values that can be used, and values that can only be passed over.

Passing over a value tests its form alone.  To use it, every number in it has to be in
range, every text and key has to decode, and its arrays and objects must not nest
deeper than the reader goes.  `Draft.readable_iff` says that nothing else stands
between the two.
-/

namespace BlockForge.Json

mutual

/-- Whether the numbers in a value are in range and its texts and keys decode. -/
def Draft.isSound : Draft → Bool
  | .number value => value.isOk
  | .text value => value.isOk
  | .array items => items.isSound
  | .object members => members.isSound
  | _ => true

def DraftItems.isSound : DraftItems → Bool
  | .item value rest => value.isSound && rest.isSound
  | _ => true

def DraftMembers.isSound : DraftMembers → Bool
  | .member key value rest => key.isOk && value.isSound && rest.isSound
  | _ => true

end

mutual

/-- How deep arrays and objects nest in a value. -/
def Draft.depth : Draft → Nat
  | .array items => items.depth + 1
  | .object members => members.depth + 1
  | _ => 0

def DraftItems.depth : DraftItems → Nat
  | .item value rest => max value.depth rest.depth
  | _ => 0

def DraftMembers.depth : DraftMembers → Nat
  | .member _ value rest => max value.depth rest.depth
  | _ => 0

end

/-- Whether a value can be read as it stands, where arrays and objects may nest `n`
deep. -/
def Draft.Readable (n : Nat) (v : Draft) : Prop :=
  ∃ value, v.toJson n = .ok value

def DraftItems.Readable (n : Nat) (items : DraftItems) : Prop :=
  ∃ values, items.toJson n = .ok values

def DraftMembers.Readable (n : Nat) (members : DraftMembers) : Prop :=
  ∃ values, members.toJson n = .ok values

theorem skip_then_iff {ε : Type} {x y : Except ε Unit} :
    (do x; y) = .ok () ↔ x = .ok () ∧ y = .ok () := by
  cases x with
  | error e => simp [bind, Except.bind]
  | ok a => simp [bind, Except.bind]

section Readable

variable {n : Nat} {v : Draft}

@[simp] theorem Draft.readable_null : Draft.null.Readable n :=
  ⟨.null, rfl⟩

@[simp] theorem Draft.readable_bool {b : Bool} : (Draft.bool b).Readable n :=
  ⟨.bool b, rfl⟩

@[simp] theorem Draft.readable_number_iff {number : Except Fault Number} :
    (Draft.number number).Readable n ↔ number.isOk = true := by
  rw [Readable, toJson, exists_map_eq_ok_iff, exists_eq_ok_iff]

@[simp] theorem Draft.readable_text_iff {text : Except Fault String} :
    (Draft.text text).Readable n ↔ text.isOk = true := by
  rw [Readable, toJson, exists_map_eq_ok_iff, exists_eq_ok_iff]

@[simp] theorem Draft.not_readable_broken {flaw : Flaw} : ¬ (Draft.broken flaw).Readable n := by
  rintro ⟨value, hvalue⟩
  cases hvalue

/-- An array can be read where one level more is left than its elements need. -/
theorem Draft.readable_array_iff {items : DraftItems} :
    (Draft.array items).Readable n ↔ ∃ m, n = m + 1 ∧ items.Readable m := by
  cases n with
  | zero => simp [Readable, toJson]
  | succ m => simp [Readable, toJson, exists_map_eq_ok_iff, DraftItems.Readable]

theorem Draft.readable_object_iff {members : DraftMembers} :
    (Draft.object members).Readable n ↔ ∃ m, n = m + 1 ∧ members.Readable m := by
  cases n with
  | zero => simp [Readable, toJson]
  | succ m => simp [Readable, toJson, exists_map_eq_ok_iff, DraftMembers.Readable]

@[simp] theorem DraftItems.readable_done : DraftItems.done.Readable n :=
  ⟨[], rfl⟩

@[simp] theorem DraftItems.not_readable_broken {flaw : ListFlaw} :
    ¬ (DraftItems.broken flaw).Readable n := by
  rintro ⟨values, hvalues⟩
  cases hvalues

theorem DraftItems.readable_item_iff {rest : DraftItems} :
    (DraftItems.item v rest).Readable n ↔ v.Readable n ∧ rest.Readable n := by
  simp only [Readable, Draft.Readable, toJson, except_bind_eq_ok_iff]
  constructor
  · rintro ⟨_, value, hvalue, values, hvalues, -⟩
    exact ⟨⟨value, hvalue⟩, ⟨values, hvalues⟩⟩
  · rintro ⟨⟨value, hvalue⟩, ⟨values, hvalues⟩⟩
    exact ⟨_, value, hvalue, values, hvalues, rfl⟩

@[simp] theorem DraftMembers.readable_done : DraftMembers.done.Readable n :=
  ⟨[], rfl⟩

@[simp] theorem DraftMembers.not_readable_noKey : ¬ (DraftMembers.noKey v).Readable n := by
  rintro ⟨values, hvalues⟩
  cases hvalues

@[simp] theorem DraftMembers.not_readable_broken {flaw : ObjectFlaw} :
    ¬ (DraftMembers.broken flaw).Readable n := by
  rintro ⟨values, hvalues⟩
  cases hvalues

theorem DraftMembers.readable_member_iff {key : Except Fault String} {rest : DraftMembers} :
    (DraftMembers.member key v rest).Readable n ↔
      key.isOk = true ∧ v.Readable n ∧ rest.Readable n := by
  rw [← exists_eq_ok_iff]
  simp only [Readable, Draft.Readable, toJson, except_bind_eq_ok_iff]
  constructor
  · rintro ⟨_, k, hkey, value, hvalue, values, hvalues, -⟩
    exact ⟨⟨k, hkey⟩, ⟨value, hvalue⟩, ⟨values, hvalues⟩⟩
  · rintro ⟨⟨k, hkey⟩, ⟨value, hvalue⟩, ⟨values, hvalues⟩⟩
    exact ⟨_, k, hkey, value, hvalue, values, hvalues, rfl⟩

end Readable

mutual

/-- A value can be read exactly when it can be passed over, is sound, and does not
nest too deep. -/
theorem Draft.readable_iff (n : Nat) : (v : Draft) →
    (v.Readable n ↔ v.skip = .ok () ∧ v.isSound = true ∧ v.depth ≤ n)
  | .null => by simp [Draft.skip, Draft.isSound, Draft.depth]
  | .bool value => by simp [Draft.skip, Draft.isSound, Draft.depth]
  | .number value => by simp [Draft.skip, Draft.isSound, Draft.depth]
  | .text value => by simp [Draft.skip, Draft.isSound, Draft.depth]
  | .broken flaw => by simp [Draft.skip]
  | .array items => by
      rw [Draft.readable_array_iff, Draft.skip, Draft.isSound, Draft.depth]
      cases n with
      | zero => simp
      | succ m => simp [DraftItems.readable_iff m items]
  | .object members => by
      rw [Draft.readable_object_iff, Draft.skip, Draft.isSound, Draft.depth]
      cases n with
      | zero => simp
      | succ m => simp [DraftMembers.readable_iff m members]

theorem DraftItems.readable_iff (n : Nat) : (items : DraftItems) →
    (items.Readable n ↔ items.skip = .ok () ∧ items.isSound = true ∧ items.depth ≤ n)
  | .done => by simp [DraftItems.skip, DraftItems.isSound, DraftItems.depth]
  | .broken flaw => by simp [DraftItems.skip]
  | .item v rest => by
      rw [DraftItems.readable_item_iff, Draft.readable_iff n v, DraftItems.readable_iff n rest,
        DraftItems.skip, skip_then_iff, DraftItems.isSound, Bool.and_eq_true, DraftItems.depth,
        Nat.max_le]
      tauto

theorem DraftMembers.readable_iff (n : Nat) : (members : DraftMembers) →
    (members.Readable n ↔
      members.skip = .ok () ∧ members.isSound = true ∧ members.depth ≤ n)
  | .done => by simp [DraftMembers.skip, DraftMembers.isSound, DraftMembers.depth]
  | .noKey found => by simp [DraftMembers.skip]
  | .broken flaw => by simp [DraftMembers.skip]
  | .member key v rest => by
      rw [DraftMembers.readable_member_iff, Draft.readable_iff n v,
        DraftMembers.readable_iff n rest, DraftMembers.skip, skip_then_iff,
        DraftMembers.isSound, Bool.and_eq_true, Bool.and_eq_true, DraftMembers.depth, Nat.max_le]
      tauto

end

end BlockForge.Json
