import BlockForge.Json.Draft
import BlockForge.Table
import BlockForge.Word

/-!
Readers of drafts: values of a wanted type, read in the order of the text.

A reader takes a draft and gives a value or the first fault.  Arrays and objects
may nest to a fixed depth, and `levels` is what is left of it; a value that is
skipped may nest to any depth.  Records are described by their entries, and are
read from an object by name or from an array by position.
-/

namespace BlockForge.Json

variable {α σ : Type}

/-- How deep arrays and objects may nest. -/
def nestingLimit : Nat := 127

/-- Enter an array or object if the depth allows it. -/
def descend (levels : Nat) (inside : Nat → Except Fault α) : Except Fault α :=
  match levels with
  | 0 => .error .tooDeep
  | n + 1 => inside n

/-- The fault of a reader that wants something else than the draft holds. -/
def Draft.mismatch (wanted : String) : Draft → Fault
  | .null => .wrongType .null wanted
  | .bool value => .wrongType (.bool value) wanted
  | .number (.ok value) => .wrongType (.number value) wanted
  | .number (.error fault) => fault
  | .text (.ok value) => .wrongType (.text value) wanted
  | .text (.error fault) => fault
  | .array _ => .wrongType .sequence wanted
  | .object _ => .wrongType .map wanted
  | .broken flaw => flaw.fault

mutual

/-- Pass over a value: only its form matters. -/
def Draft.skip : Draft → Except Fault Unit
  | .array items => items.skip
  | .object members => members.skip
  | .broken flaw => .error flaw.skipFault
  | _ => .ok ()

def DraftItems.skip : DraftItems → Except Fault Unit
  | .done => .ok ()
  | .item value rest => do
      value.skip
      rest.skip
  | .broken flaw => .error flaw.skipFault

def DraftMembers.skip : DraftMembers → Except Fault Unit
  | .done => .ok ()
  | .member _ value rest => do
      value.skip
      rest.skip
  | .noKey _ => .error .keyNotText
  | .broken flaw => .error flaw.skipFault

end

mutual

/-- Any value, with the members of its objects as they stand. -/
def Draft.toJson : Nat → Draft → Except Fault Json
  | _, .null => .ok .null
  | _, .bool value => .ok (.bool value)
  | _, .number value => value.map .number
  | _, .text value => value.map .text
  | levels, .array items =>
      match levels with
      | 0 => .error .tooDeep
      | n + 1 => (items.toJson n).map .array
  | levels, .object members =>
      match levels with
      | 0 => .error .tooDeep
      | n + 1 => (members.toJson n).map .object
  | _, .broken flaw => .error flaw.fault

def DraftItems.toJson : Nat → DraftItems → Except Fault (List Json)
  | _, .done => .ok []
  | levels, .item value rest => do
      let v ← value.toJson levels
      let vs ← rest.toJson levels
      .ok (v :: vs)
  | _, .broken flaw => .error flaw.fault

def DraftMembers.toJson : Nat → DraftMembers → Except Fault (List (String × Json))
  | _, .done => .ok []
  | levels, .member key value rest => do
      let k ← key
      let v ← value.toJson levels
      let vs ← rest.toJson levels
      .ok ((k, v) :: vs)
  | _, .noKey _ => .error .keyNotText
  | _, .broken flaw => .error flaw.fault

end

/-- A text. -/
def Draft.asText : Draft → Except Fault String
  | .text value => value
  | draft => .error (draft.mismatch "a string")

/-- A truth value. -/
def Draft.asBool : Draft → Except Fault Bool
  | .bool value => .ok value
  | draft => .error (draft.mismatch "a boolean")

/-- The null value, wanted as such. -/
def Draft.asUnit : Draft → Except Fault Unit
  | .null => .ok ()
  | draft => .error (draft.mismatch "unit")

/-- A whole number from `low` to `high`. -/
def Draft.asInteger (low high : Int) (wanted : String) : Draft → Except Fault Int
  | .number (.ok (.integer value)) =>
      if low ≤ value ∧ value ≤ high then .ok value else .error (.wrongValue value wanted)
  | draft => .error (draft.mismatch wanted)

/-- A whole number of 64 bits with a sign. -/
def Draft.asSigned : Draft → Except Fault Int :=
  Draft.asInteger Word.minSigned Word.maxSigned "i64"

/-- A whole number of 64 bits without a sign. -/
def Draft.asCount (draft : Draft) : Except Fault Nat :=
  (draft.asInteger 0 Word.maxUnsigned "usize").map Int.toNat

/-- A value that may be null.  What starts like null is taken for it. -/
def Draft.asOptional (read : Draft → Except Fault α) : Draft → Except Fault (Option α)
  | .null => .ok none
  | .broken (.badNull fault) => .error fault
  | draft => (read draft).map some

/-- The elements of an array, each by the same reader. -/
def DraftItems.read (read : Draft → Except Fault α) : DraftItems → Except Fault (List α)
  | .done => .ok []
  | .item value rest => do
      let v ← read value
      let vs ← rest.read read
      .ok (v :: vs)
  | .broken flaw => .error flaw.fault

/-- The members of an object in order, each value by the same reader. -/
def DraftMembers.read (read : Draft → Except Fault α) :
    DraftMembers → Except Fault (List (String × α))
  | .done => .ok []
  | .member key value rest => do
      let k ← key
      let v ← read value
      let vs ← rest.read read
      .ok ((k, v) :: vs)
  | .noKey _ => .error .keyNotText
  | .broken flaw => .error flaw.fault

/-- An array of values of one kind. -/
def Draft.asList (levels : Nat) (read : Nat → Draft → Except Fault α) :
    Draft → Except Fault (List α)
  | .array items => descend levels fun n => items.read (read n)
  | draft => .error (draft.mismatch "a sequence")

/-- An object of values of one kind. -/
def Draft.asMap (levels : Nat) (read : Nat → Draft → Except Fault α) :
    Draft → Except Fault (List (String × α))
  | .object members => descend levels fun n => members.read (read n)
  | draft => .error (draft.mismatch "a map")

/-- A choice between names. -/
structure Choice (α : Type) where
  names : List String
  pick? : String → Option α

/-- The choice a name makes. -/
def Choice.pick (choice : Choice α) (name : String) : Except Fault α :=
  match choice.pick? name with
  | some a => .ok a
  | none => .error (.unknownVariant name choice.names)

/-- A choice written as its name, or as an object that holds null under its name. -/
def Draft.asChoice (levels : Nat) (choice : Choice α) : Draft → Except Fault α
  | .text name => do choice.pick (← name)
  | .object members =>
      descend levels fun _ =>
        match members with
        | .done => .error .expectedValue
        | .broken .ended => .error .endOfValue
        | .broken flaw => .error flaw.fault
        | .noKey found => .error (found.mismatch "variant identifier")
        | .member key value rest => do
            let a ← choice.pick (← key)
            value.asUnit
            match rest with
            | .done => .ok a
            | .broken .ended => .error .endOfObject
            | _ => .error .expectedValue
  | .broken (.badNumber _) => .error .expectedValue
  | .broken (.badWord _) => .error .expectedValue
  | .broken (.badNull _) => .error .expectedValue
  | .broken flaw => .error flaw.fault
  | _ => .error .expectedValue

/-- One entry of a record: its name and other names for it, whether it was read
already, and how it is read into what was read so far. -/
structure Entry (σ : Type) where
  name : String
  aliases : List String := []
  required : Bool := false
  isSet : σ → Bool
  read : Nat → σ → Draft → Except Fault σ

/-- Whether a key names the entry. -/
def Entry.accepts (entry : Entry σ) (key : String) : Bool :=
  key == entry.name || entry.aliases.contains key

/-- Read the members of an object into a record.  Other members are skipped, and
no entry may come twice. -/
def DraftMembers.readEntries (entries : List (Entry σ)) (levels : Nat) :
    σ → DraftMembers → Except Fault σ
  | parts, .done =>
      match entries.find? fun e => e.required && !e.isSet parts with
      | some e => .error (.missingField e.name)
      | none => .ok parts
  | parts, .member key value rest => do
      let k ← key
      match entries.find? fun e => e.accepts k with
      | none =>
          value.skip
          rest.readEntries entries levels parts
      | some e =>
          if e.isSet parts then .error (.duplicateField e.name)
          else
            let parts ← e.read levels parts value
            rest.readEntries entries levels parts
  | _, .noKey _ => .error .keyNotText
  | _, .broken flaw => .error flaw.fault

/-- Read the elements of an array into a record, entry by entry.  `index` counts
the elements read so far, and `wanted` says how many there should be. -/
def DraftItems.readEntries (wanted : String) (levels : Nat) :
    List (Entry σ) → Nat → σ → DraftItems → Except Fault σ
  | [], _, parts, .done => .ok parts
  | [], _, _, .item _ _ => .error .trailingCharacters
  | [], _, _, .broken flaw => .error flaw.surplusFault
  | e :: entries, index, parts, .done =>
      if e.required then .error (.wrongLength index wanted)
      else DraftItems.readEntries wanted levels entries index parts .done
  | e :: entries, index, parts, .item value rest => do
      let parts ← e.read levels parts value
      DraftItems.readEntries wanted levels entries (index + 1) parts rest
  | _ :: _, _, _, .broken flaw => .error flaw.fault

/-- The number of elements a record has as an array. -/
def elementCount (type : String) (n : Nat) : String :=
  type ++ " with " ++ toString n ++ (if n = 1 then " element" else " elements")

/-- A record, from nothing read so far. -/
def Draft.asRecord (type : String) (entries : List (Entry σ)) (blank : σ) (levels : Nat) :
    Draft → Except Fault σ
  | .object members => descend levels fun n => members.readEntries entries n blank
  | .array items =>
      descend levels fun n =>
        items.readEntries (elementCount type entries.length) n entries 0 blank
  | draft => .error (draft.mismatch type)

/-- Read a whole text: nothing but spaces may follow the value. -/
def Draft.Whole.read (whole : Draft.Whole) (read : Nat → Draft → Except Fault α) :
    Except Fault α := do
  let a ← read nestingLimit whole.value
  if whole.trailing then .error .trailingCharacters else .ok a

/-- Read a text by a reader of drafts. -/
def readText (text : String) (read : Nat → Draft → Except Fault α) : Except Fault α :=
  (Draft.ofText text.toList).read read

/-- Any JSON value in a text. -/
def ofText (text : String) : Except Fault Json :=
  readText text Draft.toJson

end BlockForge.Json
