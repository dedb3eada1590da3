import RouteAssets.Registration.Comments
import RouteAssets.Text.Blank
import RouteAssets.Text.WordChar
import RouteAssets.Usage

/-!
# Entries of a registration text

An entry is a key `[Namespace.Name]:` with the value behind it. The value ends at the first comma or
closing bracket outside its own brackets and strings, at the next key, or with the text. An entry is
lazy when its value holds an `import` of a quoted specifier; the first such import counts.
-/

namespace RouteAssets.Registration

open RouteAssets.Text

/-! ## Keys -/

/-- Can a character start an identifier of a key? -/
def isNameStart (c : Char) : Bool := c.isAlpha || c == '_' || c == '$'

/-- Can a character continue an identifier of a key? -/
def isNamePart (c : Char) : Bool := isWord c || c == '$'

/-- An identifier after blanks, and the text behind it and further blanks. -/
def paddedName? (cs : List Char) : Option (List Char × List Char) :=
  match cs.dropWhile isBlank with
  | c :: rest =>
    if isNameStart c then
      some (c :: rest.takeWhile isNamePart, (rest.dropWhile isNamePart).dropWhile isBlank)
    else none
  | [] => none

/-- The text behind a character at the front. -/
def afterChar (c : Char) : List Char → Option (List Char)
  | [] => none
  | d :: cs => if d == c then some cs else none

/-- A key at the front of a text: its dependency, and the text behind it. -/
def keyAt? (cs : List Char) : Option (DepId × List Char) := do
  let rest ← afterChar '[' cs
  let (owner, rest) ← paddedName? rest
  let rest ← afterChar '.' rest
  let (name, rest) ← paddedName? rest
  let rest ← afterChar ']' rest
  let rest ← afterChar ':' (rest.dropWhile isBlank)
  return (String.ofList (owner ++ '.' :: name), rest)

/-! ## Values -/

/-- Does a character open a bracket? -/
def isOpener (c : Char) : Bool := c == '(' || c == '[' || c == '\x7b'

/-- Does a character close a bracket? -/
def isCloser (c : Char) : Bool := c == ')' || c == ']' || c == '\x7d'

/-- The length of the value at the front of a text, read from inside a region that is no comment and
from `depth` open brackets. -/
def valueLengthFrom : Region → Nat → List Char → Nat
  | _, _, [] => 0
  | .string q, depth, c :: cs => valueLengthFrom (Region.afterStringChar q c) depth cs + 1
  | .escape q, depth, _ :: cs => valueLengthFrom (.string q) depth cs + 1
  | _, depth, c :: cs =>
    if isQuote c then valueLengthFrom (.string c) depth cs + 1
    else if depth == 0 && (c == ',' || isCloser c || (keyAt? (c :: cs)).isSome) then 0
    else if isOpener c then valueLengthFrom .plain (depth + 1) cs + 1
    else if isCloser c then valueLengthFrom .plain (depth - 1) cs + 1
    else valueLengthFrom .plain depth cs + 1

/-- The length of the value at the front of a text. -/
def valueLength (cs : List Char) : Nat := valueLengthFrom .plain 0 cs

/-- Where the value that starts at an offset ends, for offsets inside the text. -/
def valueEnd (cs : List Char) (start : Nat) : Nat :=
  if cs.length ≤ start then cs.length else start + valueLength (cs.drop start)

/-! ## Imports -/

/-- The quoted text at the front of a text, and the text behind it. It is not empty and holds no
quote of any kind. -/
def quotedAt? (cs : List Char) : Option (List Char × List Char) :=
  match cs with
  | q :: rest =>
    if isQuote q then
      match rest.takeWhile (!isQuote ·), rest.dropWhile (!isQuote ·) with
      | [], _ => none
      | inner, c :: rest => if c == q then some (inner, rest) else none
      | _, [] => none
    else none
  | [] => none

/-- The specifier of an import at the front of a text. -/
def importAt? (cs : List Char) : Option (List Char) := do
  let rest ← if "import".toList.isPrefixOf cs then some (cs.drop 6) else none
  let rest ← afterChar '(' (rest.dropWhile isBlank)
  let (specifier, rest) ← quotedAt? (rest.dropWhile isBlank)
  let _ ← afterChar ')' (rest.dropWhile isBlank)
  return specifier

/-- The specifier of the first import in a text. -/
def firstImport? : List Char → Option (List Char)
  | [] => none
  | c :: cs => importAt? (c :: cs) <|> firstImport? cs

/-! ## Entries -/

/-- A registration: the dependency, and the specifier that is imported for it. -/
structure Entry where
  depId : DepId
  specifier : Option String
  deriving DecidableEq, Repr

/-- The entry of a key with the text behind it. -/
def entryOf (depId : DepId) (rest : List Char) : Entry :=
  { depId, specifier := (firstImport? (rest.take (valueLength rest))).map String.ofList }

/-- The entries of a text without comments, found in at most `n` steps of one character or key. -/
def entriesUpTo : Nat → List Char → List Entry
  | 0, _ => []
  | _ + 1, [] => []
  | n + 1, c :: cs =>
    match keyAt? (c :: cs) with
    | some (depId, rest) => entryOf depId rest :: entriesUpTo n rest
    | none => entriesUpTo n cs

/-- The entries of a registration text in order. -/
def entries (code : String) : List Entry :=
  let cs := blankComments code.toList
  entriesUpTo cs.length cs

end RouteAssets.Registration
