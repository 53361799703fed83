import BlockForge.Json.Quote

/-!
JSON values as text, on one line or over many.

The compact form has no spaces.  The indented form gives every element and
member a line of its own, indented by two spaces for each level, and keeps empty
arrays and objects on one line.
-/

namespace BlockForge.Json

mutual

/-- A value on one line without spaces. -/
def compact : Json → List Char
  | .null => "null".toList
  | .bool true => "true".toList
  | .bool false => "false".toList
  | .number n => n.text
  | .text s => quote s
  | .array [] => ['[', ']']
  | .array (v :: rest) => '[' :: (v.compact ++ compactItems rest ++ [']'])
  | .object [] => ['\x7b', '\x7d']
  | .object ((k, v) :: rest) =>
      '\x7b' :: (quote k ++ ':' :: v.compact ++ compactMembers rest ++ ['\x7d'])

/-- The elements after the first one, each after a comma. -/
def compactItems : List Json → List Char
  | [] => []
  | v :: rest => ',' :: (v.compact ++ compactItems rest)

/-- The members after the first one, each after a comma. -/
def compactMembers : List (String × Json) → List Char
  | [] => []
  | (k, v) :: rest => ',' :: (quote k ++ ':' :: v.compact ++ compactMembers rest)

end

/-- A new line at some level. -/
def newLine (level : Nat) : List Char :=
  '\n' :: List.replicate (2 * level) ' '

mutual

/-- A value over several lines, inside so many levels. -/
def indented (level : Nat) : Json → List Char
  | .null => "null".toList
  | .bool true => "true".toList
  | .bool false => "false".toList
  | .number n => n.text
  | .text s => quote s
  | .array [] => ['[', ']']
  | .array (v :: rest) =>
      '[' :: (newLine (level + 1) ++ v.indented (level + 1) ++
        indentedItems (level + 1) rest ++ newLine level ++ [']'])
  | .object [] => ['\x7b', '\x7d']
  | .object ((k, v) :: rest) =>
      '\x7b' :: (newLine (level + 1) ++ quote k ++ ':' :: ' ' :: v.indented (level + 1) ++
        indentedMembers (level + 1) rest ++ newLine level ++ ['\x7d'])

/-- The elements after the first one, each after a comma. -/
def indentedItems (level : Nat) : List Json → List Char
  | [] => []
  | v :: rest => ',' :: (newLine level ++ v.indented level ++ indentedItems level rest)

/-- The members after the first one, each after a comma. -/
def indentedMembers (level : Nat) : List (String × Json) → List Char
  | [] => []
  | (k, v) :: rest =>
      ',' :: (newLine level ++ quote k ++ ':' :: ' ' :: v.indented level ++
        indentedMembers level rest)

end

/-- The compact form as a string. -/
def toCompact (value : Json) : String :=
  String.ofList value.compact

/-- The indented form as a string. -/
def toIndented (value : Json) : String :=
  String.ofList (value.indented 0)

example : toCompact (.object [("a", .array [.null, .bool true]), ("b", .array [])]) =
    "\x7b\"a\":[null,true],\"b\":[]\x7d" := by decide +kernel

end BlockForge.Json
