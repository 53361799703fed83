import BlockForge.Proofs.Isolation
import BlockForge.Proofs.Json.Usable

/-!
Telling a schema from source text.

Where the format is left open, a text counts as a schema if it is JSON.  Reading a
schema only passes over the values under keys it does not know, while reading JSON
uses every value.  So a text that holds a schema counts as one exactly when the values
it passes over can be used as well: they are sound and do not nest too deep.  A number
out of range under an unknown key is enough for a schema to be taken for source.
-/

namespace BlockForge

namespace Json

variable {α σ : Type} {n : Nat}

/-- The values under keys that no entry accepts. -/
def DraftMembers.ignored (entries : List (Entry σ)) : DraftMembers → List Draft
  | .member (.ok key) value rest =>
      if entries.any (·.accepts key) then rest.ignored entries
      else value :: rest.ignored entries
  | .member (.error _) _ rest => rest.ignored entries
  | _ => []

/-- The values that reading a record passes over. -/
def Draft.ignored (entries : List (Entry σ)) : Draft → List Draft
  | .object members => members.ignored entries
  | _ => []

/-- A reader that uses all of the value it reads. -/
def UsesAll (n : Nat) (read : Draft → Except Fault α) : Prop :=
  ∀ v a, read v = .ok a → v.Readable n

theorem usesAll_asText : UsesAll n Draft.asText := by
  intro v a h
  cases v with
  | text text => exact Draft.readable_text_iff.2 (exists_eq_ok_iff.1 ⟨a, h⟩)
  | _ => cases h

theorem usesAll_asBool : UsesAll n Draft.asBool := by
  intro v a h
  cases v with
  | bool b => exact Draft.readable_bool
  | _ => cases h

theorem usesAll_asUnit : UsesAll n Draft.asUnit := by
  intro v a h
  cases v with
  | null => exact Draft.readable_null
  | _ => cases h

theorem usesAll_asSigned : UsesAll n Draft.asSigned := by
  intro v a h
  cases v with
  | number number =>
      cases number with
      | error fault => cases h
      | ok number => exact Draft.readable_number_iff.2 rfl
  | _ => cases h

theorem UsesAll.asOptional {read : Draft → Except Fault α} (hread : UsesAll n read) :
    UsesAll n (Draft.asOptional read) := by
  intro v a h
  have hsome (h : (read v).map some = .ok a) : v.Readable n := by
    obtain ⟨a', ha'⟩ := exists_map_eq_ok_iff.1 ⟨a, h⟩
    exact hread v a' ha'
  cases v with
  | null => exact Draft.readable_null
  | broken flaw =>
      cases flaw with
      | badNull fault => cases h
      | _ => exact hsome h
  | _ => exact hsome h

theorem usesAll_asChoice (choice : Choice α) : UsesAll n (Draft.asChoice n choice) := by
  intro v a h
  cases v with
  | text text =>
      obtain ⟨name, hname, -⟩ := except_bind_eq_ok_iff.1 h
      exact Draft.readable_text_iff.2 (exists_eq_ok_iff.1 ⟨name, hname⟩)
  | object members =>
      cases n with
      | zero => cases h
      | succ m =>
          refine Draft.readable_object_iff.2 ⟨m, rfl, ?_⟩
          cases members with
          | member key value rest =>
              obtain ⟨k, hkey, h⟩ := except_bind_eq_ok_iff.1 h
              obtain ⟨_, _, h⟩ := except_bind_eq_ok_iff.1 h
              obtain ⟨_, hunit, h⟩ := except_bind_eq_ok_iff.1 h
              refine DraftMembers.readable_member_iff.2
                ⟨exists_eq_ok_iff.1 ⟨k, hkey⟩, usesAll_asUnit _ _ hunit, ?_⟩
              cases rest with
              | done => exact DraftMembers.readable_done
              | broken flaw => cases flaw <;> cases h
              | _ => cases h
          | broken flaw => cases flaw <;> cases h
          | _ => cases h
  | broken flaw => cases flaw <;> cases h
  | _ => cases h

theorem DraftItems.readable_of_read {read : Draft → Except Fault α} (hread : UsesAll n read) :
    (items : DraftItems) → (as : List α) → items.read read = .ok as → items.Readable n
  | .done, _, _ => readable_done
  | .item v rest, as, h => by
      rw [DraftItems.read, except_bind_eq_ok_iff] at h
      obtain ⟨a, ha, h⟩ := h
      obtain ⟨as', has', -⟩ := except_bind_eq_ok_iff.1 h
      exact readable_item_iff.2 ⟨hread v a ha, readable_of_read hread rest as' has'⟩

theorem UsesAll.asList {read : Nat → Draft → Except Fault α} (hread : ∀ n, UsesAll n (read n)) :
    UsesAll n (Draft.asList n read) := by
  intro v as h
  cases v with
  | array items =>
      cases n with
      | zero => cases h
      | succ m =>
          exact Draft.readable_array_iff.2
            ⟨m, rfl, DraftItems.readable_of_read (hread m) items as h⟩
  | _ => cases h

/-- An entry whose reader uses all of the value. -/
def Entry.UsesValue (entry : Entry σ) : Prop :=
  ∀ n parts, UsesAll n (entry.read n parts)

variable {entries : List (Entry σ)}

theorem DraftItems.readable_of_readEntries {wanted : String} :
    (entries : List (Entry σ)) → (∀ e ∈ entries, e.UsesValue) → (index : Nat) →
      (parts : σ) → (items : DraftItems) → (parts' : σ) →
        items.readEntries wanted n entries index parts = .ok parts' → items.Readable n
  | _, _, _, _, .done, _, _ => readable_done
  | [], _, _, _, .broken _, _, h => by cases h
  | _ :: _, _, _, _, .broken _, _, h => by cases h
  | e :: entries, huses, index, parts, .item v rest, parts', h => by
      rw [DraftItems.readEntries, except_bind_eq_ok_iff] at h
      obtain ⟨next, hnext, h⟩ := h
      refine readable_item_iff.2 ⟨huses e List.mem_cons_self n parts v next hnext, ?_⟩
      exact readable_of_readEntries entries (fun e he => huses e (List.mem_cons_of_mem _ he))
        (index + 1) next rest parts' h

/-- Reading a member passes over its value if no entry accepts the key, and otherwise
uses all of it. -/
theorem DraftMembers.cases_of_readEntries (huses : ∀ e ∈ entries, e.UsesValue) {key : String}
    {v : Draft} {rest : DraftMembers} {parts parts' : σ}
    (h : (DraftMembers.member (.ok key) v rest).readEntries entries n parts = .ok parts') :
    (entries.any (·.accepts key) = false ∧ v.skip = .ok () ∧
        rest.readEntries entries n parts = .ok parts') ∨
      (entries.any (·.accepts key) = true ∧ v.Readable n ∧
        ∃ next, rest.readEntries entries n next = .ok parts') := by
  obtain ⟨_, hkey, h⟩ := except_bind_eq_ok_iff.1 h
  obtain rfl := Except.ok.inj hkey
  cases hfind : entries.find? fun e => e.accepts key with
  | none =>
      rw [hfind] at h
      obtain ⟨_, hskip, h⟩ := except_bind_eq_ok_iff.1 h
      exact .inl ⟨by simpa using hfind, hskip, h⟩
  | some e =>
      rw [hfind] at h
      by_cases hset : e.isSet parts = true
      · simp [hset] at h
      · simp only [hset] at h
        obtain ⟨next, hnext, h⟩ := except_bind_eq_ok_iff.1 h
        have hmem := List.mem_of_find?_eq_some hfind
        have haccepts : e.accepts key = true := by simpa using List.find?_some hfind
        exact .inr ⟨List.any_eq_true.2 ⟨e, hmem, haccepts⟩, huses e hmem n parts v next hnext,
          next, h⟩

/-- Once the members of a record were read, only the values passed over decide whether
they can be used. -/
theorem DraftMembers.readable_iff_of_readEntries (huses : ∀ e ∈ entries, e.UsesValue) :
    (members : DraftMembers) → (parts parts' : σ) →
      members.readEntries entries n parts = .ok parts' →
        (members.Readable n ↔ ∀ v ∈ members.ignored entries, v.isSound = true ∧ v.depth ≤ n)
  | .done, _, _, _ => by simp [ignored]
  | .noKey _, _, _, h => by cases h
  | .broken _, _, _, h => by cases h
  | .member (.error _) _ _, _, _, h => by cases h
  | .member (.ok key) v rest, parts, parts', h => by
      have hmember : (DraftMembers.member (.ok key) v rest).Readable n ↔
          v.Readable n ∧ rest.Readable n := by
        rw [readable_member_iff]
        exact and_iff_right rfl
      rw [hmember, ignored]
      rcases cases_of_readEntries huses h with
        ⟨hunknown, hskip, hrest⟩ | ⟨hknown, hv, next, hrest⟩
      · rw [readable_iff_of_readEntries huses rest parts parts' hrest, Draft.readable_iff,
          hunknown]
        simp [hskip]
      · rw [readable_iff_of_readEntries huses rest next parts' hrest, hknown]
        simp [hv]

theorem Draft.readable_iff_of_asRecord (huses : ∀ e ∈ entries, e.UsesValue) {type : String}
    {blank parts : σ} {v : Draft} (h : v.asRecord type entries blank n = .ok parts) :
    v.Readable n ↔ ∀ w ∈ v.ignored entries, w.isSound = true ∧ w.depth < n := by
  cases v with
  | object members =>
      cases n with
      | zero => cases h
      | succ m =>
          have hmembers := DraftMembers.readable_iff_of_readEntries huses members blank parts h
          simp only [readable_object_iff, Nat.add_right_cancel_iff, exists_eq_left', hmembers,
            ignored, Nat.lt_succ_iff]
  | array items =>
      cases n with
      | zero => cases h
      | succ m =>
          have hitems := DraftItems.readable_of_readEntries entries huses 0 blank items parts h
          simp [readable_array_iff, hitems, ignored]
  | _ => cases h

end Json

open Json (UsesAll Entry)

theorem usesAll_matching {α : Type} {type : String} {ofJson? : Json → Option α} (n : Nat) :
    UsesAll n (matching type ofJson? n) := by
  intro v a h
  obtain ⟨value, hvalue, -⟩ := except_bind_eq_ok_iff.1 h
  exact ⟨value, hvalue⟩

namespace Descriptor

/-- No entry of a schema passes over its value or over a part of it. -/
theorem usesValue_of_mem_entries : ∀ e ∈ entries, e.UsesValue := by
  have huses {α : Type} {n : Nat} {read : Json.Draft → Except Json.Fault α}
      (hread : UsesAll n read) (fill : α → Parts) :
      UsesAll n fun v => do return fill (← read v) := by
    intro v parts h
    obtain ⟨a, ha, -⟩ := except_bind_eq_ok_iff.1 h
    exact hread v a ha
  simp only [entries, List.forall_mem_cons, List.not_mem_nil, false_implies, implies_true, and_true]
  refine ⟨?_, ?_, ?_, ?_, ?_, ?_, ?_, ?_, ?_, ?_, ?_⟩ <;> intro n parts
  · exact huses Json.usesAll_asText _
  · exact huses (Json.usesAll_asChoice _).asOptional _
  · exact huses Json.usesAll_asText _
  · exact huses (UsesAll.asList usesAll_matching) _
  · exact huses Json.usesAll_asBool.asOptional _
  · exact huses (usesAll_matching n) _
  · exact huses (usesAll_matching n) _
  · exact huses (usesAll_matching n) _
  · exact huses Json.usesAll_asSigned.asOptional _
  · exact huses Json.usesAll_asText _
  · exact huses Json.usesAll_asText _

/-- The values that reading a schema from a text passes over. -/
def ignored (code : String) : List Json.Draft :=
  (Json.Draft.ofText code.toList).value.ignored entries

end Descriptor

namespace Preview

/-- A text that holds a schema is JSON when the values it passes over can be used. -/
theorem isJson_iff_of_ofText {code : String} {d : Descriptor}
    (h : Descriptor.ofText code = .ok d) :
    isJson code = true ↔
      ∀ v ∈ Descriptor.ignored code, v.isSound = true ∧ v.depth < Json.nestingLimit := by
  have hread : Json.readText code Descriptor.read = .ok d := by
    rw [Descriptor.ofText] at h
    cases hread : Json.readText code Descriptor.read with
    | error fault => simp [hread, Except.mapError] at h
    | ok d' => simpa [hread, Except.mapError] using h
  obtain ⟨d', hvalue, hrest⟩ := except_bind_eq_ok_iff.1 hread
  obtain ⟨parts, hparts⟩ := exists_map_eq_ok_iff.1 ⟨d', hvalue⟩
  have htrailing : (Json.Draft.ofText code.toList).trailing = false := by
    cases htrailing : (Json.Draft.ofText code.toList).trailing with
    | false => rfl
    | true => simp [htrailing] at hrest
  have hwhole : Json.ofText code =
      (Json.Draft.ofText code.toList).value.toJson Json.nestingLimit := by
    rw [Json.ofText, Json.readText, Json.Draft.Whole.read, htrailing]
    cases (Json.Draft.ofText code.toList).value.toJson Json.nestingLimit <;> rfl
  have hjson : isJson code = (Json.ofText code).isOk := by
    rw [isJson]
    cases Json.ofText code <;> rfl
  rw [hjson, hwhole, ← exists_eq_ok_iff]
  exact Json.Draft.readable_iff_of_asRecord Descriptor.usesValue_of_mem_entries hparts

/-- No scope shows source text. -/
theorem ofSource_ne_of_ofScope {text : String} {scope : Registry.Isolated} {p : Preview}
    (h : ofScope scope = .ok p) : ofSource text ≠ .ok p := by
  intro hsource
  obtain rfl : .source text = p := by
    rw [ofSource] at hsource
    split at hsource
    next => exact Except.ok.inj hsource
    next => cases hsource
  rw [ofScope] at h
  split at h
  next => cases h
  next name _ =>
    split at h
    next => cases h
    next =>
      obtain ⟨block, _, h⟩ := except_bind_eq_ok_iff.1 h
      cases h

/-- Where the format is left open, a text that holds a schema is previewed as one when
the values it passes over can be used.  Otherwise it is taken for source, and no
preview of the schema comes out. -/
theorem render_manual_of_ofText {code : String} {d : Descriptor}
    (h : Descriptor.ofText code = .ok d) (r : Registry) :
    ((∀ v ∈ Descriptor.ignored code, v.isSound = true ∧ v.depth < Json.nestingLimit) →
        render code .manual r = render code .json r) ∧
      (¬ (∀ v ∈ Descriptor.ignored code, v.isSound = true ∧ v.depth < Json.nestingLimit) →
        render code .manual r = render code .source r ∧
          ∀ p, render code .json r = .ok p → render code .manual r ≠ .ok p) := by
  have hblank := Descriptor.not_allBlank_of_ofText h
  have hmanual : render code .manual r =
      if isJson code then render code .json r else render code .source r := by
    rw [render_json hblank, render_source hblank, render, pass, hblank,
      if_neg Bool.false_ne_true]
    cases isJson code <;> rfl
  rw [← isJson_iff_of_ofText h, hmanual]
  constructor
  · intro hdetected
    rw [if_pos hdetected]
  · intro hdetected
    rw [if_neg hdetected]
    refine ⟨rfl, fun p hp => ?_⟩
    rw [render_json hblank, passSchema_fst h] at hp
    rw [render_source hblank]
    exact ofSource_ne_of_ofScope hp

/-- An object with one value under a key that no schema has. -/
def strayCode (value : String) : String :=
  "\x7b\"zzz\":" ++ value ++ "\x7d"

theorem render_manual_of_ofText_strayList :
    Descriptor.ofText (strayCode "[1]") = .ok {} ∧
      (∀ v ∈ Descriptor.ignored (strayCode "[1]"),
        v.isSound = true ∧ v.depth < Json.nestingLimit) ∧
      render (strayCode "[1]") .manual {} = render (strayCode "[1]") .json {} ∧
      render (strayCode "[1]") .json {} = .ok (.block ⟨"unnamed", [], .none⟩) := by
  have hread : Descriptor.ofText (strayCode "[1]") = .ok {} := by decide +kernel
  have husable : ∀ v ∈ Descriptor.ignored (strayCode "[1]"),
      v.isSound = true ∧ v.depth < Json.nestingLimit := by
    decide +kernel
  exact ⟨hread, husable, (render_manual_of_ofText hread {}).1 husable, by decide +kernel⟩

/-- A schema that passes over a number out of range is taken for source. -/
theorem render_manual_of_outOfRange :
    Descriptor.ofText (strayCode "1e999") = .ok {} ∧
      render (strayCode "1e999") .json {} = .ok (.block ⟨"unnamed", [], .none⟩) ∧
      render (strayCode "1e999") .manual {} = .ok (.source (strayCode "1e999")) := by
  decide +kernel

end Preview

end BlockForge
