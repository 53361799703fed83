import BlockForge.Preview
import BlockForge.Proofs.Fallible
import BlockForge.Proofs.Schema.ReadBack

/-!
Previews of schemas that were written and read back.

A block is rendered from names, kinds, checks and the message alone, so what JSON
does to numbers cannot be seen in it.
-/

namespace BlockForge

namespace Instance

def Slot.map (f : Arg → Arg) : Slot → Slot
  | .label => .label
  | .arg a => .arg (f a)

/-- The slots of changed arguments are the changed slots of the arguments. -/
theorem slotsFrom_map (f : Arg → Arg) (args : List Arg) (used : List Nat)
    (tokens : List Message.Token) :
    slotsFrom (args.map f) used tokens =
      (slotsFrom args used tokens).map (List.map (Slot.map f)) := by
  induction tokens generalizing used with
  | nil =>
      rw [slotsFrom, slotsFrom, List.length_map]
      split <;> rfl
  | cons token tokens ih =>
      cases token with
      | text run =>
          rw [slotsFrom, slotsFrom, ih]
          cases slotsFrom args used tokens with
          | error e => rfl
          | ok slots =>
              by_cases hblank : Text.trim run = []
              · simp [bind, Except.bind, Except.map, hblank]
              · simp [bind, Except.bind, Except.map, hblank, Slot.map]
      | reference number =>
          rw [slotsFrom, slotsFrom, List.length_map]
          generalize min number maxReference = n
          rw [List.getElem?_map]
          cases n with
          | zero => rfl
          | succ n =>
              cases args[n + 1 - 1]? with
              | none => rfl
              | some arg =>
                  by_cases hused : used.contains (n + 1) = true
                  · simp only [Option.map_some, hused, if_true]
                    rfl
                  · simp only [Option.map_some, hused, ih]
                    cases slotsFrom args ((n + 1) :: used) tokens <;> rfl

/-- Every argument in a slot is one of the arguments. -/
theorem mem_args_of_slotsFrom {args : List Arg} {used : List Nat}
    {tokens : List Message.Token} {slots : List Slot}
    (h : slotsFrom args used tokens = .ok slots) {arg : Arg} (harg : .arg arg ∈ slots) :
    arg ∈ args := by
  induction tokens generalizing used slots with
  | nil =>
      rw [slotsFrom] at h
      split at h
      next => cases h
      next =>
        obtain rfl := Except.ok.inj h
        cases harg
  | cons token tokens ih =>
      cases token with
      | text run =>
          rw [slotsFrom, except_bind_eq_ok_iff] at h
          obtain ⟨rest, hrest, h⟩ := h
          obtain rfl := Except.ok.inj h
          refine ih hrest ?_
          split at harg
          next => exact harg
          next =>
            rcases List.mem_cons.1 harg with heq | harg
            · cases heq
            · exact harg
      | reference number =>
          rw [slotsFrom] at h
          split at h
          next => cases h
          next => cases h
          next found hfound _ =>
            split at h
            next => cases h
            next =>
              rw [except_bind_eq_ok_iff] at h
              obtain ⟨rest, hrest, h⟩ := h
              obtain rfl := Except.ok.inj h
              rcases List.mem_cons.1 harg with heq | harg
              · obtain rfl := Slot.arg.inj heq
                exact List.mem_of_getElem? hfound
              · exact ih hrest harg

/-- Rows show no more of a field than its name and kind, and all of an input. -/
theorem rowsFrom_settled (lastAlign : Align) (row : List InstanceField) (slots : List Slot)
    (h : ∀ input, .arg (.input input) ∈ slots → input.settled = input) :
    rowsFrom lastAlign row (slots.map (Slot.map Arg.settled)) =
      rowsFrom lastAlign row slots := by
  induction slots generalizing row with
  | nil => rfl
  | cons slot slots ih =>
      have hslots : ∀ input, .arg (.input input) ∈ slots → input.settled = input :=
        fun input hinput => h input (List.mem_cons_of_mem slot hinput)
      cases slot with
      | label =>
          rw [List.map_cons, Slot.map, rowsFrom, rowsFrom, ih _ hslots]
      | arg arg =>
          cases arg with
          | field field =>
              have hfield : fieldOfArg field.settled = fieldOfArg field := by
                cases field <;> rfl
              rw [List.map_cons, Slot.map, Arg.settled, rowsFrom, rowsFrom, hfield, ih _ hslots]
          | input input =>
              have hinput := h input List.mem_cons_self
              rw [List.map_cons, Slot.map, Arg.settled, hinput, rowsFrom, rowsFrom, ih _ hslots]

end Instance

/-- A schema that was written and read back shows the same block. -/
theorem Instance.ofDescriptor_settled {d : Descriptor}
    (h : ∀ input, Arg.input input ∈ d.args → input.check ≠ some .any) :
    Instance.ofDescriptor d.settled = Instance.ofDescriptor d := by
  have hslots : slotsFrom d.settled.args [] (Message.tokens d.settled.message) =
      (slotsFrom d.args [] (Message.tokens d.message)).map (List.map (Slot.map Arg.settled)) :=
    slotsFrom_map Arg.settled d.args [] _
  unfold Instance.ofDescriptor
  rw [hslots]
  cases hcase : slotsFrom d.args [] (Message.tokens d.message) with
  | error e => rfl
  | ok slots =>
      have hrows := rowsFrom_settled (d.lastDummyAlign.getD .left) [] slots
        fun input hinput => InputArg.settled_eq_self (h input (mem_args_of_slotsFrom hcase hinput))
      change Except.ok (Instance.mk d.blockType
        (rowsFrom (d.lastDummyAlign.getD .left) [] (slots.map (Slot.map Arg.settled)))
        d.connections) = _
      rw [hrows]
      rfl

theorem Registry.changedSince_register_empty (d : Descriptor) :
    (({} : Registry).register d).changedSince {} = [d.registeredName] := by
  have hentries : (({} : Registry).register d).definitions.entries =
      [(d.registeredName, d)] := rfl
  have hnone (name : String) : ({} : Registry).get? name = none := rfl
  rw [Registry.changedSince, hentries]
  simp only [hnone]
  rfl

namespace Preview

theorem render_json {code : String} (h : Text.allBlank code = false) (r : Registry) :
    render code .json r = (passSchema code r).1 := by
  rw [render, pass, h]
  rfl

theorem render_source {code : String} (h : Text.allBlank code = false) (r : Registry) :
    render code .source r = ofSource code := by
  rw [render, pass, h]
  rfl

theorem passSchema_fst {code : String} {d : Descriptor} (h : Descriptor.ofText code = .ok d)
    (r : Registry) : (passSchema code r).1 = ofScope (r.isolate.register d) := by
  rw [passSchema, h]

/-- A scope in which something changed shows the first name that did. -/
theorem ofScope_of_head? {scope : Registry.Isolated} {name : String} {d : Descriptor}
    (hchanged : scope.changed.head? = some name) (hget : scope.registry.get? name = some d) :
    ofScope scope = (Instance.ofDescriptor d).map fun block =>
      .block { block with blockType := name } := by
  rw [ofScope, hchanged]
  dsimp only
  rw [hget]
  dsimp only
  cases Instance.ofDescriptor d <;> rfl

theorem get?_isolate_register (r : Registry) (d : Descriptor) :
    (r.isolate.register d).registry.get? d.registeredName = some d := by
  rw [Registry.Isolated.register, Registry.get?_register, if_pos rfl]

/-- Without other definitions a schema is shown under the name it is registered by. -/
theorem ofScope_register_empty (d : Descriptor) :
    ofScope (({} : Registry).isolate.register d) = (Instance.ofDescriptor d).map fun block =>
      .block { block with blockType := d.registeredName } := by
  have hchanged : (({} : Registry).isolate.register d).changed = [d.registeredName] :=
    Registry.changedSince_register_empty d
  refine ofScope_of_head? ?_ (get?_isolate_register {} d)
  rw [hchanged, List.head?_cons]

theorem not_allBlank_toText (d : Descriptor) : Text.allBlank d.toText = false := by
  have hhead : d.toText.toList.head? = some '\x7b' := by
    rw [Descriptor.toText, Json.toIndented, String.toList_ofList]
    rfl
  cases hshape : d.toText.toList with
  | nil =>
      rw [hshape] at hhead
      cases hhead
  | cons c cs =>
      rw [hshape] at hhead
      obtain rfl := Option.some.inj hhead
      have hbrace : Text.isBlank '\x7b' = false := by decide
      rw [Text.allBlank, hshape, List.all_cons, hbrace]
      rfl

/-- The text of a schema is shown as the schema itself is. -/
theorem render_toText {d : Descriptor}
    (hchecks : ∀ input, Arg.input input ∈ d.args → input.check ≠ some .any)
    (hcolour : ∀ hue, d.colour = some hue → Word.minSigned ≤ hue ∧ hue ≤ Word.maxSigned) :
    render d.toText .json {} = (Instance.ofDescriptor d).map fun block =>
      .block { block with blockType := d.registeredName } := by
  rw [render_json (not_allBlank_toText d), passSchema_fst (d.ofText_toText hcolour),
    ofScope_register_empty, Instance.ofDescriptor_settled hchecks]
  rfl

end Preview

end BlockForge
