/-!
# Comments in registration texts

A registration text is not parsed as a script. It is read from left to right as quoted strings, line
comments, block comments and other characters, and every comment is overwritten with blanks so that
what it holds is not taken for a registration. Offsets and line ends stay where they are.
-/

namespace RouteAssets.Registration

/-- Does a character open, and close, a quoted string? -/
def isQuote (c : Char) : Bool := c == '\x27' || c == '\x22' || c == '\x60'

/-- What a position in a registration text is inside of. An escape covers one more character of the
string around it. -/
inductive Region where
  | plain
  | string (quote : Char)
  | escape (quote : Char)
  | lineComment
  | blockComment
  deriving DecidableEq, Repr

/-- The region behind a character of a string. -/
def Region.afterStringChar (quote c : Char) : Region :=
  if c == '\\' then .escape quote else if c == quote then .plain else .string quote

/-- A blank in place of a character, line ends excepted. -/
def blanked (c : Char) : Char := if c == '\n' then '\n' else ' '

/-- A text, read from inside a region, with its comments overwritten. -/
def blankFrom : Region → List Char → List Char
  | _, [] => []
  | .plain, '/' :: '/' :: cs => ' ' :: ' ' :: blankFrom .lineComment cs
  | .plain, '/' :: '*' :: cs => ' ' :: ' ' :: blankFrom .blockComment cs
  | .plain, c :: cs => c :: blankFrom (if isQuote c then .string c else .plain) cs
  | .string q, c :: cs => c :: blankFrom (Region.afterStringChar q c) cs
  | .escape q, c :: cs => c :: blankFrom (.string q) cs
  | .lineComment, c :: cs =>
    blanked c :: blankFrom (if c == '\n' then .plain else .lineComment) cs
  | .blockComment, '*' :: '/' :: cs => ' ' :: ' ' :: blankFrom .plain cs
  | .blockComment, c :: cs => blanked c :: blankFrom .blockComment cs

/-- A text with its comments overwritten. -/
def blankComments (cs : List Char) : List Char := blankFrom .plain cs

end RouteAssets.Registration
