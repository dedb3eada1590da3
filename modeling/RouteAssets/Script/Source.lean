import RouteAssets.Script.Component
import RouteAssets.Script.Parser

/-!
# Script sources

The result of reading a script: a tree, or the reason why there is none. Everything collected from a
module is a function of its tree, so a module without one contributes nothing.
-/

namespace RouteAssets.Script

/-- What came of reading a script. -/
inductive Reading where
  | tree (root : Tree)
  | syntaxError
  | unsupported (language : String)
  | unreadable
  deriving Repr

namespace Reading

/-- The tree, where there is one. -/
def root? : Reading → Option Tree
  | tree root => some root
  | _ => none

/-- Why there is no tree. -/
def message? : Reading → Option String
  | tree _ => none
  | syntaxError => some "Syntax error"
  | unsupported language => some s!"Unsupported script language: {language}"
  | unreadable => some "File read error"

end Reading

/-- A script: its text, the name of its language, and what came of reading it. -/
structure Source where
  text : String
  language : String
  reading : Reading

namespace Source

/-- Reads a text in a dialect. -/
def read (dialect : Dialect) (text : String) : Source :=
  { text, language := dialect.name,
    reading := match parse? dialect text with
      | some root => .tree root
      | none => .syntaxError }

/-- Reads a text in the language of the given name. -/
def readNamed (language text : String) : Source :=
  match Dialect.ofName? language with
  | some dialect => read dialect text
  | none => { text, language, reading := .unsupported language }

/-- Reads the text of a file of the given kind; a component is reduced to its script first. -/
def readKind (kind : FileKind) (text : String) : Source :=
  match kind with
  | .script dialect => read dialect text
  | .component =>
    let (script, dialect) := Component.script text
    read dialect script

/-- The source of a file that cannot be read. -/
def unreadable (kind : FileKind) : Source :=
  { text := "", language := kind.name, reading := .unreadable }

/-- The tree, where there is one. -/
def root? (s : Source) : Option Tree := s.reading.root?

end Source

end RouteAssets.Script
