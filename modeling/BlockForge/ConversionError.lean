/-!
What can go wrong while editor data becomes a workspace.
-/

namespace BlockForge

inductive ConversionError where
  | validation (reason : String)
  | unknownBlockType (id type : String)
  | slotOccupied (id : Nat) (slot : String)
deriving DecidableEq

/-- The wording of every error. -/
def ConversionError.message : ConversionError → String
  | .validation reason => "Invalid editor data: " ++ reason
  | .unknownBlockType id type =>
      "Block '" ++ id ++ "' has an unrecognized type: '" ++ type ++ "'"
  | .slotOccupied id slot =>
      "Slot '" ++ slot ++ "' of node " ++ toString id ++ " is already occupied"

end BlockForge
