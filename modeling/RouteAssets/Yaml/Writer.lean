import RouteAssets.Yaml.Typing

/-!
# Writing settings as YAML

Mappings and sequences are written as blocks, two columns deeper than the name in front of them; a
sequence below a name stays in the column of the name. Empty ones are written on the line itself. A
text stands plainly where it is made of letters, digits and a few other marks and would be read as a
text, and between single quotation marks otherwise.
-/

namespace RouteAssets.Yaml

/-- May the character occur anywhere in a plain text? -/
def isPlainChar (c : Char) : Bool := c.isAlphanum || "_./\\-:".toList.contains c

/-- May the character stand in front of a plain text? -/
def isPlainStart (c : Char) : Bool := c.isAlphanum || c == '_' || c == '.' || c == '/'

/-- Can a text be written plainly? -/
def isPlain (s : String) : Bool :=
  s.toList.head?.any isPlainStart && s.toList.all isPlainChar && s.toList.getLast? != some ':' &&
    Tag.ofPlain s == .text

/-- A text as a scalar. -/
def textForm (s : String) : String :=
  if isPlain s then s
  else "\x27" ++ String.ofList (s.toList.flatMap fun c => if c == '\x27' then [c, c] else [c]) ++ "\x27"

/-- A simple value as a scalar. -/
def scalarForm : Scalar → String
  | .null => "null"
  | .truth b => if b then "true" else "false"
  | .number n => n.text
  | .text s => textForm s
  | .time t => t.text

/-- An indentation by some columns. -/
def margin (n : Nat) : String := String.ofList (List.replicate n ' ')

mutual

/-- The text of a setting behind its name, up to the end of its last line. -/
def blockForm (column : Nat) : Setting → String
  | .scalar s => " " ++ scalarForm s ++ "\n"
  | .list [] => " []\n"
  | .list items => "\n" ++ itemLines column items
  | .mapping [] => " \x7b\x7d\n"
  | .mapping entries => "\n" ++ entryLines (column + 2) entries

/-- The lines of the items of a list. -/
def itemLines (column : Nat) : List Setting → String
  | [] => ""
  | s :: items => margin column ++ "-" ++ blockForm (column + 2) s ++ itemLines column items

/-- The lines of the entries of a mapping. -/
def entryLines (column : Nat) : List (Scalar × Setting) → String
  | [] => ""
  | (name, s) :: es =>
    margin column ++ scalarForm name ++ ":" ++ blockForm column s ++ entryLines column es

end

end RouteAssets.Yaml

namespace RouteAssets.Config

/-- The text of a configuration. -/
def toYaml (c : Config) : String := Yaml.entryLines 0 c

end RouteAssets.Config
