import BlockForge.CommandLine.Run

/-!
The program on real files.
-/

namespace BlockForge.CommandLine

/-- The wording of the usual reasons for which the system refuses a file. -/
def systemReasons : List (UInt32 × String) :=
  [(2, "No such file or directory"), (13, "Permission denied"), (20, "Not a directory"),
   (21, "Is a directory"), (28, "No space left on device"), (36, "File name too long")]

/-- The reason of a system error number, with a fallback for its wording.  Some
operations give the number with the opposite sign. -/
def systemReason (number : UInt32) (details : String) : String :=
  let code := if number < 0x80000000 then number else 0 - number
  let text := ((systemReasons.find? fun e => e.1 == code).map Prod.snd).getD details
  text ++ " (os error " ++ toString code ++ ")"

/-- Why a file could not be read or written. -/
def reasonOf : IO.Error → String
  | .noFileOrDirectory _ code details => systemReason code details
  | .permissionDenied _ code details => systemReason code details
  | .inappropriateType _ code details => systemReason code details
  | .invalidArgument _ code details => systemReason code details
  | .otherError code details => systemReason code details
  | .userError _ => "stream did not contain valid UTF-8"
  | e => toString e

/-- An action that gives the reason when it fails. -/
def attempted {α : Type} (action : IO α) : IO (Except String α) := do
  match ← action.toBaseIO with
  | .ok a => return .ok a
  | .error e => return .error (reasonOf e)

/-- The file system and the standard streams. -/
def systemHost : Host IO where
  read path := attempted (IO.FS.readFile path)
  write path content := attempted (IO.FS.writeFile path content)
  print text := do
    let out ← IO.getStdout
    out.putStr text
  report text := do
    let err ← IO.getStderr
    err.putStr text

end BlockForge.CommandLine

/-- Run the program on the arguments it is started with. -/
def main (args : List String) : IO UInt32 := do
  let code ← BlockForge.CommandLine.runOn BlockForge.CommandLine.systemHost args
  return code.toUInt32
