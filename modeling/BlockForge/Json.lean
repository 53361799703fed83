import BlockForge.Double.Shortest

/-!
JSON values.

An object keeps its members in the order in which they stand, so that a written
object shows them in that order; `sorted` is the same value with the keys of
every object in ascending order, of a repeated key the last member.
-/

namespace BlockForge

/-- Numbers are whole or binary floating-point. -/
inductive Json.Number where
  | integer (value : Int)
  | real (value : Double)
deriving DecidableEq

inductive Json where
  | null
  | bool (value : Bool)
  | number (value : Json.Number)
  | text (value : String)
  | array (items : List Json)
  | object (members : List (String × Json))

namespace Json

instance : Inhabited Json := ⟨.null⟩

/-- A whole number in decimal. -/
def integerText (i : Int) : List Char :=
  if i < 0 then '-' :: Nat.toDigits 10 i.natAbs else Nat.toDigits 10 i.natAbs

/-- A number as text.  JSON has no form for a number that is not finite. -/
def Number.text : Number → List Char
  | .integer i => integerText i
  | .real x => (Double.text? x).getD "null".toList

/-- Enter a member at its key's place, over an older one of the same key. -/
def enterMember (k : String) (v : Json) : List (String × Json) → List (String × Json)
  | [] => [(k, v)]
  | (k', v') :: rest =>
      if k < k' then (k, v) :: (k', v') :: rest
      else if k = k' then (k, v) :: rest
      else (k', v') :: enterMember k v rest

mutual

/-- The value with every object's keys in ascending order and once each. -/
def sorted : Json → Json
  | .array items => .array (sortedItems items)
  | .object members => .object (sortedMembers members [])
  | value => value

def sortedItems : List Json → List Json
  | [] => []
  | v :: rest => v.sorted :: sortedItems rest

/-- Enter members one after the other among those entered before. -/
def sortedMembers : List (String × Json) → List (String × Json) → List (String × Json)
  | [], entered => entered
  | (k, v) :: rest, entered => sortedMembers rest (enterMember k v.sorted entered)

end

end Json

end BlockForge
