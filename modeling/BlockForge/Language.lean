import BlockForge.GenerationError
import BlockForge.Text.Blank

/-!
The languages that generator stubs are written for.
-/

namespace BlockForge

inductive Language where
  | javaScript
  | python
  | php
  | dart
  | lua
deriving DecidableEq

namespace Language

def all : List Language := [javaScript, python, php, dart, lua]

/-- The language's name in generated code. -/
def name : Language → String
  | javaScript => "JavaScript"
  | python => "Python"
  | php => "PHP"
  | dart => "Dart"
  | lua => "Lua"

/-- What ends a statement of generated code. -/
def terminator : Language → String
  | javaScript => ";"
  | python => ""
  | php => ";"
  | dart => ";"
  | lua => ""

/-- The name in lowercase. -/
def key (language : Language) : List Char :=
  language.name.toList.map Char.toLower

/-- The language that a text names, in any case and with blanks around it. -/
def ofText (text : String) : Except GenerationError Language :=
  match all.find? fun l => l.key == (Text.trim text.toList).map Char.toLower with
  | some language => .ok language
  | none => .error (.unknownLanguage text)

/-- The language whose lowercase name a text is, to the letter. -/
def ofKey? (text : String) : Option Language :=
  all.find? fun l => l.key == text.toList

end Language

end BlockForge
