import BlockForge.CommandLine.Path
import BlockForge.Table

/-!
A working directory in memory, with what a program prints and reports.

A directory exists when a file lies below it; writing makes files, but never
directories.  Of the directories above the working directory nothing is known but
that they are there.  The root holds the usual system directories, and among them
the devices that stand for the standard streams, for nothing, and for a disk
without space.
-/

namespace BlockForge.CommandLine

/-- Where the names of a location start. -/
inductive Origin where
  | root
  /-- So many levels above the working directory. -/
  | above (levels : Nat)
deriving DecidableEq

/-- A place that names lead to. -/
structure Location where
  origin : Origin
  names : List String
deriving DecidableEq

namespace Location

/-- The working directory. -/
def working : Location := ⟨.above 0, []⟩

def root : Location := ⟨.root, []⟩

/-- The directory above; above the root lies the root. -/
def up : Location → Location
  | ⟨.root, []⟩ => ⟨.root, []⟩
  | ⟨.above levels, []⟩ => ⟨.above (levels + 1), []⟩
  | ⟨origin, names⟩ => ⟨origin, names.dropLast⟩

/-- The place of a name. -/
def down (l : Location) (name : String) : Location :=
  ⟨l.origin, l.names ++ [name]⟩

/-- What the names of an origin have in front of them. -/
def lead : Origin → List String
  | .root => [""]
  | .above levels => List.replicate levels ".."

/-- The one path of a location under which its file is kept. -/
def key (l : Location) : String :=
  String.intercalate "/" (lead l.origin ++ l.names)

end Location

/-- A file that holds nothing and passes on what is written to it. -/
inductive Device where
  | null
  | full
  | input
  | output
  | report
deriving DecidableEq

/-- The device of a path. -/
def Device.ofKey? : String → Option Device
  | "/dev/null" => some .null
  | "/dev/full" => some .full
  | "/dev/stdin" => some .input
  | "/dev/stdout" => some .output
  | "/dev/stderr" => some .report
  | _ => none

/-- The directories that the root always holds. -/
def systemDirectories : List String :=
  ["bin", "boot", "dev", "etc", "home", "lib", "media", "mnt", "opt", "proc", "root", "run",
   "sbin", "srv", "sys", "tmp", "usr", "var"]

/-- Files by their path, and the texts printed and reported so far. -/
structure Directory where
  files : Table String := ∅
  stdout : String := ""
  stderr : String := ""
deriving DecidableEq

/-- What stands at a location. -/
inductive Found where
  | file (content : String)
  | device (device : Device)
  | directory
  | missing
deriving DecidableEq

namespace Directory

/-- A directory that holds some files. -/
def ofFiles (files : List (String × String)) : Directory :=
  { files := .ofList files }

/-- Whether a location is one of the system directories, or some file lies below it. -/
def hasDirectory (d : Directory) (l : Location) : Bool :=
  (l.origin == .root && systemDirectories.any fun name => l.names == [name]) ||
    d.files.keys.any fun key => (l.key ++ "/").toList.isPrefixOf key.toList

/-- What stands at a location that a name leads to. -/
def found (d : Directory) (l : Location) : Found :=
  match Device.ofKey? l.key, d.files.get? l.key with
  | some device, _ => .device device
  | none, some content => .file content
  | none, none => if d.hasDirectory l then .directory else .missing

/-- What a directory holds under a name. -/
def lookUp (d : Directory) (l : Location) (name : String) : Except Refusal Found :=
  if maxNameBytes < name.utf8ByteSize then .error .nameTooLong else .ok (d.found (l.down name))

/-- The directory that a step leads to. -/
def enter (d : Directory) (l : Location) : PathStep → Except Refusal Location
  | .stay => .ok l
  | .up => .ok l.up
  | .down name => do
      match ← d.lookUp l name with
      | .directory => .ok (l.down name)
      | .missing => .error .notFound
      | _ => .error .notADirectory

/-- The directory in which the last step of a path is taken. -/
def parent (d : Directory) (path : Path) : Except Refusal Location :=
  path.steps.dropLast.foldlM d.enter (if path.fromRoot then .root else .working)

/-- The content of the file that a path leads to.  The devices hold nothing. -/
def read (d : Directory) (text : String) : Except Refusal String := do
  let path ← Path.ofText text
  let parent ← d.parent path
  match path.steps.getLast? with
  | some (.down name) =>
      match ← d.lookUp parent name with
      | .directory => .error .isADirectory
      | .missing => .error .notFound
      | .device _ => if path.endsInSlash then .error .notADirectory else .ok ""
      | .file content => if path.endsInSlash then .error .notADirectory else .ok content
  | _ => .error .isADirectory

/-- Write to a device. -/
def send (d : Directory) (content : String) : Device → Except Refusal Directory
  | .output => .ok { d with stdout := d.stdout ++ content }
  | .report => .ok { d with stderr := d.stderr ++ content }
  | .full => if content = "" then .ok d else .error .noSpace
  | _ => .ok d

/-- Write the file that a path leads to, which need not exist.  A slash at the end
asks for a directory, whatever stands there. -/
def write (d : Directory) (text content : String) : Except Refusal Directory := do
  let path ← Path.ofText text
  let parent ← d.parent path
  match path.steps.getLast? with
  | some (.down name) =>
      if path.endsInSlash then .error .isADirectory
      else
        match ← d.lookUp parent name with
        | .directory => .error .isADirectory
        | .device device => d.send content device
        | _ => .ok { d with files := d.files.insert (parent.down name).key content }
  | _ => .error .isADirectory

/-- Whether a file lies in the working directory or below it. -/
def isInside (key : String) : Bool :=
  !(['/'].isPrefixOf key.toList || ['.', '.', '/'].isPrefixOf key.toList)

/-- The files of the working directory that are not the same as in an earlier one. -/
def writtenSince (d before : Directory) : List (String × String) :=
  d.files.entries.filter fun e => isInside e.1 && before.files.get? e.1 != some e.2

example : ((ofFiles [("a", "x")]).read "./a").toOption = some "x" ∧
    ((ofFiles [("a", "x")]).read "a/").toOption = none ∧
    ((ofFiles [("a", "x")]).read "no/../a").toOption = none := by decide +kernel

end Directory

end BlockForge.CommandLine
