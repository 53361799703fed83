/-!
What can stop the making of a schema, a preview or a stub.
-/

namespace BlockForge

inductive GenerationError where
  | missingRoot
  | emptyInput
  | malformedType (text reason : String)
  | unknownFormat (text : String)
  | unknownLanguage (text : String)
  | invalidSchema (reason : String)
  | unbalancedSource (reason : String)
deriving DecidableEq

/-- Nothing to do, as opposed to a failure. -/
def GenerationError.isNoop : GenerationError → Bool
  | .missingRoot => true
  | .emptyInput => true
  | _ => false

/-- The wording of every error. -/
def GenerationError.message : GenerationError → String
  | .missingRoot => "No block definition container found among the top-level blocks"
  | .emptyInput => "Nothing to process"
  | .malformedType text reason =>
      "Type '" ++ text ++ "' is not a valid type name: " ++ reason
  | .unknownFormat text => "Unknown format: " ++ text
  | .unknownLanguage text => "Unknown target language: " ++ text
  | .invalidSchema reason => "Invalid block schema: " ++ reason
  | .unbalancedSource reason => "Source text does not parse: " ++ reason

end BlockForge
