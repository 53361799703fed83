import BlockForge.Schema.Reader

/-!
Type expressions: the type names plugged into a slot, in schema notation.

The names are JSON texts, apart from the bare `null` that stands for any type
and outweighs every other name.  An expression is encoded as schema text and
read back as a constraint, so a constraint is exactly what the schema's own
reader makes of it.
-/

namespace BlockForge

/-- The name that stands for any type. -/
def anyType : String := "null"

/-- No names, one name, or several different names in the order of their first
occurrence. -/
inductive TypeExpression where
  | absent
  | single (name : String)
  | list (names : List String)
deriving DecidableEq

namespace TypeExpression

/-- The expression of some names; repetitions are dropped. -/
def ofNames (names : List String) : TypeExpression :=
  match names.eraseDups with
  | [] => .absent
  | [name] => .single name
  | names => .list names

def names : TypeExpression → List String
  | absent => []
  | single name => [name]
  | list names => names

/-- The expression as schema text, if it says anything. -/
def encoded? : TypeExpression → Option String
  | absent => none
  | single name => some name
  | list names =>
      if names.contains anyType then some anyType
      else some ("[" ++ String.intercalate ", " names ++ "]")

/-- The constraint that the schema text of the expression stands for. -/
def constraint (e : TypeExpression) : Except GenerationError (Option Constraint) :=
  match e.encoded? with
  | none => .ok none
  | some text =>
      match Json.readText text Constraint.read with
      | .ok c => .ok (some c)
      | .error fault => .error (.malformedType text fault.message)

end TypeExpression

end BlockForge
