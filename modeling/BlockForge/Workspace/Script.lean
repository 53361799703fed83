import BlockForge.Workspace

/-!
Edits of a workspace.

A workspace grows by adding nodes and by linking them.  An edit that is refused
leaves the workspace as it is.
-/

namespace BlockForge.Workspace

inductive Edit where
  | add (node : Node)
  | addTop (node : Node)
  | placeOnTop (id : NodeId)
  | attach (owner : NodeId) (slot : String) (child : NodeId)
  | link (prev next : NodeId)

/-- The workspace after an edit, or why the edit is refused. -/
def Edit.apply? (ws : Workspace) : Edit → Except ConversionError Workspace
  | .add node => .ok (ws.add node)
  | .addTop node => .ok (ws.addTop node)
  | .placeOnTop id => .ok (ws.placeOnTop id)
  | .attach owner slot child => ws.attach owner slot child
  | .link prev next => ws.link prev next

/-- The workspace after an edit that may be refused. -/
def edited (ws : Workspace) (edit : Edit) : Workspace :=
  match edit.apply? ws with
  | .ok ws => ws
  | .error _ => ws

/-- The workspace after edits, from the empty one on. -/
def ofEdits (edits : List Edit) : Workspace :=
  edits.foldl edited .empty

end BlockForge.Workspace
