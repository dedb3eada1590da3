/-!
# Reading a YAML text

A cursor stands in a text and knows its line and column. Behind the end of the text there is always
one more NUL, which no text contains. Line ends are unified before, so a line ends with a newline, a
next-line character or a Unicode separator.
-/

namespace RouteAssets.Yaml

/-- Why a text yields no value. The first is a text that is no YAML, or one with a tag that has no
meaning here; the others are texts that a type claims and cannot read. -/
inductive Fault where
  | malformed
  | invalidValue
  | unknownTruth
  | emptyNumber
  | invalidTime
  deriving DecidableEq, Repr

/-- A place in a text. -/
structure Cursor where
  rest : List Char
  index : Nat
  line : Nat
  column : Nat
  deriving DecidableEq, Repr

/-- A reader of a part of a text. -/
abbrev Scan (α : Type) := StateT Cursor (Except Fault) α

/-! ## Characters -/

/-- Does the character end a line? -/
def isBreak (c : Char) : Bool := c == '\n' || c == '\x85' || c == '\u2028' || c == '\u2029'

/-- Is it the end of a line or of the text? -/
def endsLine (c : Char) : Bool := c == '\x00' || isBreak c

/-- Is it a space, or the end of a line or of the text? -/
def isSpaceOrEnd (c : Char) : Bool := c == ' ' || endsLine c

/-- Is it a space or a tab, or the end of a line or of the text? -/
def isBlankOrEnd (c : Char) : Bool := c == '\t' || isSpaceOrEnd c

/-- May the character occur in a name: of an anchor, a directive or a tag handle? -/
def isNameChar (c : Char) : Bool := c.isAlphanum || c == '-' || c == '_'

/-- May the character occur in a YAML text at all? -/
def isAdmitted (c : Char) : Bool :=
  let n := c.toNat
  n == 0x9 || n == 0xa || n == 0xd || (0x20 ≤ n && n ≤ 0x7e) || n == 0x85 ||
    (0xa0 ≤ n && n ≤ 0xd7ff) || (0xe000 ≤ n && n ≤ 0xfffd) || 0x10000 ≤ n

/-! ## Moving -/

namespace Cursor

/-- The place in front of a text. -/
def start (text : List Char) : Cursor := { rest := text, index := 0, line := 0, column := 0 }

/-- The character `n` places ahead. -/
def peekAt (c : Cursor) (n : Nat) : Char := (c.rest.drop n).headD '\x00'

/-- The place behind the next character. A byte order mark takes no column. -/
def next (c : Cursor) : Cursor :=
  match c.rest with
  | [] => c
  | x :: rest =>
    if isBreak x then { rest, index := c.index + 1, line := c.line + 1, column := 0 }
    else
      { rest, index := c.index + 1, line := c.line,
        column := if x == '\ufeff' then c.column else c.column + 1 }

/-- The place `n` characters on. -/
def advance (c : Cursor) : Nat → Cursor
  | 0 => c
  | n + 1 => c.next.advance n

/-- Do three equal marks of the given kind stand here, alone on their line or before a blank? -/
def isMarker (c : Cursor) (mark : Char) : Bool :=
  c.peekAt 0 == mark && c.peekAt 1 == mark && c.peekAt 2 == mark && isBlankOrEnd (c.peekAt 3)

/-- Does a document start or end here, as far as the line tells? -/
def isDocumentMarker (c : Cursor) : Bool := c.isMarker '-' || c.isMarker '.'

end Cursor

/-- Gives up. -/
def refuse {α : Type} : Scan α := throw .malformed

/-- The next character. -/
def peek : Scan Char := return (← get).peekAt 0

/-- Steps over the next character. -/
def skip : Scan Unit := modify Cursor.next

/-- Steps over `n` characters. -/
def skipMany (n : Nat) : Scan Unit := modify (·.advance n)

/-- Takes the characters up to the first without a property. -/
def takeWhile (p : Char → Bool) : Scan (List Char) := do
  let taken := (← get).rest.takeWhile p
  skipMany taken.length
  return taken

/-- Steps over characters with a property. -/
def skipWhile (p : Char → Bool) : Scan Unit := do
  let _ ← takeWhile p

/-- Goes on only if the next character has a property. -/
def demand (p : Char → Bool) : Scan Unit := do
  unless p (← peek) do refuse

/-- Takes a line end if one is here, as the character that it stands for. -/
def lineBreak : Scan (List Char) := do
  let c ← peek
  if isBreak c then
    skip
    return [if c == '\x85' then '\n' else c]
  else return []

/-- Steps over a comment if one is here. -/
def skipComment : Scan Unit := do
  if (← peek) == '#' then skipWhile (!isBreak ·)

/-- Steps over the end of a line on which nothing but a comment may follow. -/
def closeLine : Scan Unit := do
  skipWhile (· == ' ')
  skipComment
  demand endsLine
  let _ ← lineBreak

/-- Takes a name. -/
def takeName : Scan String := do
  let name ← takeWhile isNameChar
  if name.isEmpty then refuse
  return String.ofList name

end RouteAssets.Yaml
