import BlockForge.CommandLine.Directory
import BlockForge.CommandLine.Run

/-!
The program on a directory in memory.
-/

namespace BlockForge.CommandLine

/-- A directory as the program's surroundings. -/
def Directory.host : Host (StateM Directory) where
  read path := fun d => ((d.read path).mapError Refusal.message, d)
  write path content := fun d =>
    match d.write path content with
    | .ok d' => (.ok (), d')
    | .error refusal => (.error refusal.message, d)
  print text := fun d => ((), { d with stdout := d.stdout ++ text })
  report text := fun d => ((), { d with stderr := d.stderr ++ text })

/-- The exit code of the program, and the directory after it. -/
def run (args : List String) (d : Directory) : Nat × Directory :=
  (runOn Directory.host args).run d

end BlockForge.CommandLine
