import BlockForge.Proofs.Schema.ReadBack
import BlockForge.Workspace.TypeTree
import Mathlib.Data.List.Induction

/-!
Type expressions read back: from the names of type blocks to a constraint.

A type block contributes a leaf: a text typed in, a name, or any type.  Leaves are kept
as schema text, so what comes back from the schema's reader has to be shown to be what
went in, whatever characters the names hold: names are quoted one by one
(`encodedTypeName_injective`), and a list of quoted names is read back as a list
(`readText_nameList`).
-/

namespace BlockForge

section Distinct

variable {α β : Type} [DecidableEq α] [DecidableEq β]

/-- An element that comes last is kept if it is the first of its kind. -/
theorem eraseDups_concat (as : List α) (a : α) :
    (as ++ [a]).eraseDups = if a ∈ as then as.eraseDups else as.eraseDups ++ [a] := by
  rw [List.eraseDups_append, List.removeAll]
  by_cases h : a ∈ as
  · simp [h]
  · simp [h, List.eraseDups_cons]

theorem eraseDups_eraseDups (as : List α) : as.eraseDups.eraseDups = as.eraseDups := by
  induction as using List.reverseRecOn with
  | nil => rfl
  | append_singleton as a ih =>
      rw [eraseDups_concat]
      by_cases h : a ∈ as
      · rw [if_pos h, ih]
      · have hkept : a ∉ as.eraseDups := fun hmem => h (List.mem_eraseDups.1 hmem)
        rw [if_neg h, eraseDups_concat, ih, if_neg hkept]

/-- Repetitions may be dropped in the parts of a list first. -/
theorem eraseDups_append (as bs : List α) :
    (as ++ bs).eraseDups = (as.eraseDups ++ bs.eraseDups).eraseDups := by
  induction bs using List.reverseRecOn with
  | nil => rw [List.append_nil, List.eraseDups_nil, List.append_nil, eraseDups_eraseDups]
  | append_singleton bs b ih =>
      have hmem : b ∈ as.eraseDups ++ bs.eraseDups ↔ b ∈ as ++ bs := by
        rw [List.mem_append, List.mem_append, List.mem_eraseDups, List.mem_eraseDups]
      rw [← List.append_assoc, eraseDups_concat, eraseDups_concat bs b]
      by_cases h : b ∈ bs
      · rw [if_pos h, if_pos (List.mem_append_right as h), ih]
      · rw [if_neg h, ← List.append_assoc, eraseDups_concat (as.eraseDups ++ bs.eraseDups), ih]
        exact if_congr hmem.symm rfl rfl

/-- Values that a function tells apart are repeated where their images are. -/
theorem eraseDups_map {f : α → β} (hf : Function.Injective f) (as : List α) :
    (as.map f).eraseDups = as.eraseDups.map f := by
  induction as using List.reverseRecOn with
  | nil => rfl
  | append_singleton as a ih =>
      rw [List.map_append, List.map_singleton, eraseDups_concat, eraseDups_concat, ih]
      by_cases h : a ∈ as
      · rw [if_pos h, if_pos (List.mem_map_of_mem h)]
      · rw [if_neg h, if_neg fun hmem => h ((List.mem_map_of_injective hf).1 hmem),
          List.map_append, List.map_singleton]

end Distinct

/-- What a type block stands for. -/
inductive TypeLeaf where
  | typed (text : String)
  | named (name : String)
  | any
deriving DecidableEq

/-- The name of a type, unless it is any type. -/
def TypeLeaf.name? : TypeLeaf → Option String
  | .typed text => some text
  | .named name => some name
  | .any => none

/-- The constraint that some types amount to. -/
def Constraint.ofLeaves (leaves : List TypeLeaf) : Option Constraint :=
  if .any ∈ leaves then some .any
  else
    match (leaves.filterMap TypeLeaf.name?).eraseDups with
    | [] => none
    | [name] => some (.one name)
    | names => some (.many names)

/-- A type as schema text. -/
def TypeLeaf.encoded (leaf : TypeLeaf) : String :=
  (leaf.name?.map encodedTypeName).getD anyType

theorem encodedTypeName_injective : Function.Injective encodedTypeName := by
  intro a b h
  have hquote : Json.quote a = Json.quote b := String.ofList_injective h
  have hread := Json.readValue_text a [] Nat.one_pos
  rw [hquote, Json.readValue_text b [] Nat.one_pos] at hread
  simpa using hread.symm

theorem encodedTypeName_ne_anyType (name : String) : encodedTypeName name ≠ anyType := by
  intro h
  have hchars := congrArg String.toList h
  rw [encodedTypeName, String.toList_ofList, Json.quote] at hchars
  exact absurd (List.cons.inj hchars).1 (by decide)

namespace Json

/-- The names after the first one of a list in one line. -/
def furtherNames (names : List String) : List Char :=
  names.flatMap fun name => ',' :: ' ' :: quote name

/-- The names of a list in one line, from the first one to the bracket that closes it. -/
theorem readItems_names (name : String) (names : List String) (n : Nat)
    (hn : (furtherNames names).length + 1 < n) :
    readItems n (quote name ++ (furtherNames names ++ [']'])) =
      (draftItems ((name :: names).map Json.text), []) := by
  obtain ⟨n, rfl⟩ := exists_succ (Nat.zero_lt_of_lt hn)
  induction names generalizing name n with
  | nil =>
      rw [furtherNames, List.flatMap_nil, List.nil_append, readItems, readValue_text _ _ (by omega)]
      simp only [skipSpace_bracket, if_true]
      rfl
  | cons next names ih =>
      have hlength : (furtherNames (next :: names)).length =
          (quote next).length + (furtherNames names).length + 2 := by
        simp only [furtherNames, List.flatMap_cons, List.cons_append, List.length_cons,
          List.length_append]
      obtain ⟨n, rfl⟩ := exists_succ (show 0 < n by omega)
      have hrest := ih next n (by omega)
      rw [furtherNames, List.flatMap_cons, ← furtherNames, readItems,
        readValue_text _ _ (Nat.zero_lt_succ n)]
      simp only [List.cons_append, List.append_assoc, skipSpace_comma]
      have hspace : skipSpace (' ' :: (quote next ++ (furtherNames names ++ [']']))) =
          quote next ++ (furtherNames names ++ [']']) := skipSpace_quote next _
      rw [hspace]
      rw [quote, List.cons_append] at hrest ⊢
      simp only [hrest, if_false, if_true, show ',' ≠ ']' by decide, show '"' ≠ ']' by decide]
      rfl

theorem toList_nameList (name : String) (names : List String) :
    ("[" ++ String.intercalate ", " ((name :: names).map encodedTypeName) ++ "]").toList =
      '[' :: (quote name ++ (furtherNames names ++ [']'])) := by
  have hnames : (String.intercalate ", " ((name :: names).map encodedTypeName)).toList =
      quote name ++ furtherNames names := by
    induction names generalizing name with
    | nil => simp [furtherNames, encodedTypeName]
    | cons next names ih =>
        rw [List.map_cons, List.map_cons, String.intercalate_cons_cons, ← List.map_cons,
          String.toList_append, ih]
        simp [furtherNames, encodedTypeName]
  rw [String.toList_append, String.toList_append, hnames]
  simp

/-- A list of names in one line is read as the list. -/
theorem readText_nameList {α : Type} (name : String) (names : List String)
    (read : Nat → Draft → Except Fault α) :
    readText ("[" ++ String.intercalate ", " ((name :: names).map encodedTypeName) ++ "]") read =
      read nestingLimit (Json.array ((name :: names).map Json.text)).draft := by
  have hwhole : Draft.ofText ('[' :: (quote name ++ (furtherNames names ++ [']']))) =
      ⟨(Json.array ((name :: names).map Json.text)).draft, false⟩ := by
    have hitems := readItems_names name names
      (2 * ('[' :: (quote name ++ (furtherNames names ++ [']']))).length + 1)
      (by simp only [List.length_cons, List.length_append]; omega)
    rw [Draft.ofText, readValue, skipSpace_cons rfl]
    simp only [skipSpace_quote, if_true]
    rw [quote, List.cons_append] at hitems ⊢
    simp only [hitems, show '"' ≠ ']' by decide, if_false]
    rfl
  rw [readText, toList_nameList, hwhole, Draft.Whole.read]
  cases read nestingLimit (Json.array ((name :: names).map Json.text)).draft <;> rfl

end Json

namespace TypeLeaf

theorem encoded_of_any_not_mem {leaves : List TypeLeaf} (h : .any ∉ leaves) :
    leaves.map encoded = (leaves.filterMap name?).map encodedTypeName := by
  rw [← List.filterMap_eq_map, List.map_filterMap]
  refine List.filterMap_congr fun leaf hleaf => ?_
  cases leaf with
  | typed text => rfl
  | named name => rfl
  | any => exact absurd hleaf h

end TypeLeaf

/-- A constraint is read back from its text. -/
theorem Constraint.readText_toIndented (c : Constraint) :
    Json.readText c.toJson.toIndented Constraint.read = .ok c :=
  (Json.readText_toIndented (c.within_toJson 126) Constraint.read).trans (c.read_draft 126)

namespace TypeExpression

theorem constraint_of_encoded?_eq {t : TypeExpression} {c : Constraint} {text : String}
    (htext : t.encoded? = some text) (hread : Json.readText text Constraint.read = .ok c) :
    t.constraint = .ok (some c) := by
  rw [constraint, htext]
  dsimp only
  rw [hread]

/-- Where any type is among the names, it outweighs the others. -/
theorem constraint_ofNames_of_any {names : List String} (h : anyType ∈ names) :
    (ofNames names).constraint = .ok (some .any) := by
  have hread : Json.readText anyType Constraint.read = .ok .any :=
    Constraint.any.readText_toIndented
  refine constraint_of_encoded?_eq ?_ hread
  have hmem := List.mem_eraseDups.2 h
  unfold ofNames
  split
  next hnil =>
    rw [hnil] at hmem
    cases hmem
  next hone =>
    rw [hone, List.mem_singleton] at hmem
    rw [encoded?, hmem]
  next => rw [encoded?, if_pos (by simpa using h)]

/-- Types that are encoded and read back give the constraint that they amount to. -/
theorem constraint_ofNames_encoded (leaves : List TypeLeaf) :
    (ofNames (leaves.map TypeLeaf.encoded)).constraint = .ok (Constraint.ofLeaves leaves) := by
  by_cases hany : .any ∈ leaves
  · rw [Constraint.ofLeaves, if_pos hany]
    exact constraint_ofNames_of_any (List.mem_map_of_mem hany)
  rw [TypeLeaf.encoded_of_any_not_mem hany, Constraint.ofLeaves, if_neg hany, ofNames,
    eraseDups_map encodedTypeName_injective]
  generalize (leaves.filterMap TypeLeaf.name?).eraseDups = names
  match names with
  | [] => rfl
  | [name] => exact constraint_of_encoded?_eq rfl (Constraint.one name).readText_toIndented
  | name :: next :: names =>
      refine constraint_of_encoded?_eq (if_neg ?_) ?_
      · rw [List.contains_iff_mem, ← List.map_cons, List.mem_map]
        rintro ⟨other, -, hother⟩
        exact encodedTypeName_ne_anyType other hother
      · exact (Json.readText_nameList name (next :: names) _).trans
          ((Constraint.many (name :: next :: names)).read_draft 126)

end TypeExpression

end BlockForge
