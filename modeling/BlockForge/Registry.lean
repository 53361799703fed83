import BlockForge.Schema
import BlockForge.Table

/-!
Registries: the block definitions known by name.

A definition is registered under its type, and one without a type under
`unnamed`.  Compared with an earlier registry, a name has changed when its
definition is not equal to the one of before; a definition that holds a number
which is no number is equal to none, not even to itself.

A registry can be isolated: what is registered then goes into a scratch table, and
the table from before is put back when the scope ends.
-/

namespace BlockForge

/-- The name of a definition that has no type. -/
def unnamed : String := "unnamed"

/-- The name under which a definition is registered. -/
def Descriptor.registeredName (d : Descriptor) : String :=
  if d.blockType = "" then unnamed else d.blockType

/-- Definitions by name. -/
structure Registry where
  definitions : Table Descriptor := ∅
deriving DecidableEq

namespace Registry

def empty : Registry := {}

/-- Register a definition, over an older one of the same name. -/
def register (r : Registry) (d : Descriptor) : Registry :=
  ⟨r.definitions.insert d.registeredName d⟩

def get? (r : Registry) (name : String) : Option Descriptor :=
  r.definitions.get? name

def contains (r : Registry) (name : String) : Bool :=
  r.definitions.contains name

/-- The number of definitions. -/
def size (r : Registry) : Nat :=
  r.definitions.size

/-- The names whose definition is not equal to the one in an earlier registry, in
ascending order. -/
def changedSince (r saved : Registry) : List String :=
  (r.definitions.entries.filter fun e => saved.get? e.1 != some e.2).map Prod.fst

/-- A registry inside a scope, with the table that it had when the scope was entered. -/
structure Isolated where
  registry : Registry
  saved : Table Descriptor

/-- Enter a scope. -/
def isolate (r : Registry) : Isolated :=
  ⟨r, r.definitions⟩

namespace Isolated

/-- Register a definition inside the scope. -/
def register (scope : Isolated) (d : Descriptor) : Isolated :=
  { scope with registry := scope.registry.register d }

/-- The names that changed inside the scope, in ascending order. -/
def changed (scope : Isolated) : List String :=
  scope.registry.changedSince ⟨scope.saved⟩

/-- The registry once the scope has ended: the saved table is put back. -/
def restored (scope : Isolated) : Registry :=
  { scope.registry with definitions := scope.saved }

end Isolated

/-- Whatever has become of the registry inside a scope, it is the one of before once the
scope has ended. -/
theorem restored_isolate (r inside : Registry) :
    { r.isolate with registry := inside }.restored = r := rfl

theorem get?_register (r : Registry) (d : Descriptor) (name : String) :
    (r.register d).get? name = if name = d.registeredName then some d else r.get? name :=
  Table.get?_insert _ _ _ _

end Registry

end BlockForge
