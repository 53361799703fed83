/-!
Paths: the steps that a text says to take from one directory to the next.

Slashes divide the steps, and how many of them stand together does not matter.  A
slash at the start leads to the root, and one at the end says that the path leads
to a directory.  A path and each name in it have a greatest length in bytes; that
of a name is tested where the name is looked up.
-/

namespace BlockForge.CommandLine

/-- Why a file is not read or not written. -/
inductive Refusal where
  | notFound
  | notADirectory
  | isADirectory
  | noSpace
  | nameTooLong
deriving DecidableEq

/-- The wording of every refusal. -/
def Refusal.message : Refusal → String
  | .notFound => "No such file or directory (os error 2)"
  | .notADirectory => "Not a directory (os error 20)"
  | .isADirectory => "Is a directory (os error 21)"
  | .noSpace => "No space left on device (os error 28)"
  | .nameTooLong => "File name too long (os error 36)"

/-- One step from a directory. -/
inductive PathStep where
  | stay
  | up
  | down (name : String)
deriving DecidableEq

structure Path where
  fromRoot : Bool
  steps : List PathStep
  endsInSlash : Bool
deriving DecidableEq

/-- The greatest length of a path in bytes. -/
def maxPathBytes : Nat := 4095

/-- The greatest length of a name in bytes. -/
def maxNameBytes : Nat := 255

/-- The texts between the slashes of a path. -/
def segments (path : List Char) : List (List Char) :=
  path.foldr (fun c parts =>
    if c = '/' then [] :: parts
    else
      match parts with
      | part :: rest => (c :: part) :: rest
      | [] => [[c]]) [[]]

/-- The step that a text between slashes stands for; nothing between two slashes
stands for none. -/
def PathStep.ofSegment? : List Char → Option PathStep
  | [] => none
  | ['.'] => some .stay
  | ['.', '.'] => some .up
  | name => some (.down (String.ofList name))

/-- The path that a text writes.  The empty text leads nowhere. -/
def Path.ofText (text : String) : Except Refusal Path :=
  let parts := segments text.toList
  if text = "" then .error .notFound
  else if maxPathBytes < text.utf8ByteSize then .error .nameTooLong
  else
    .ok
      { fromRoot := parts.head? == some []
        steps := parts.filterMap PathStep.ofSegment?
        endsInSlash := parts.getLast? == some [] }

example : (Path.ofText ".//a/../b/").toOption =
      some ⟨false, [.stay, .down "a", .up, .down "b"], true⟩ ∧
    (Path.ofText "/").toOption = some ⟨true, [], true⟩ := by decide +kernel

end BlockForge.CommandLine
