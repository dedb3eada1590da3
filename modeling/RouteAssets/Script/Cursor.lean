import RouteAssets.Script.Dialect
import RouteAssets.Text.Blank

/-!
# Reading position

A cursor stands in front of a token. The blanks and comments before that token are already split
off into the gap, so that a reader looks at the first character of `rest` and nowhere else, and so
that the few constructs whose inner text is not made of tokens can put the gap back.

Two facts about a position do not depend on the grammar: whether a statement may end here without a
semicolon, and where the bracket group that starts here is closed. Both are decided on characters.
-/

namespace RouteAssets.Script

open RouteAssets.Text

/-! ## Gaps -/

/-- Where the splitting of a gap stands. -/
inductive GapMode where
  | plain
  | lineComment
  | blockComment

/-- Splits blanks and comments off the front; `acc` holds what was taken, last character first. An
unclosed block comment is no comment: the result is `none` inside one, and the reader that opened
it stops in front of it. -/
def splitGapFrom : GapMode → List Char → List Char → Option (List Char × List Char)
  | .plain, acc, [] => some (acc.reverse, [])
  | .plain, acc, '/' :: '/' :: r => splitGapFrom .lineComment ('/' :: '/' :: acc) r
  | .plain, acc, '/' :: '*' :: r =>
    match splitGapFrom .blockComment ('*' :: '/' :: acc) r with
    | some found => some found
    | none => some (acc.reverse, '/' :: '*' :: r)
  | .plain, acc, c :: r =>
    if isScriptBlank c then splitGapFrom .plain (c :: acc) r else some (acc.reverse, c :: r)
  | .lineComment, acc, [] => some (acc.reverse, [])
  | .lineComment, acc, c :: r =>
    if isLineEnd c || c == '\r' then splitGapFrom .plain (c :: acc) r
    else splitGapFrom .lineComment (c :: acc) r
  | .blockComment, _, [] => none
  | .blockComment, acc, '*' :: '/' :: r => splitGapFrom .plain ('/' :: '*' :: acc) r
  | .blockComment, acc, c :: r => splitGapFrom .blockComment (c :: acc) r

/-- Blanks and comments at the front, and what follows them. -/
def splitGap (cs : List Char) : List Char × List Char :=
  (splitGapFrom .plain [] cs).getD ([], cs)

/-- Does a gap hold a line end outside its block comments? The flag says whether the scan is inside
a block comment. -/
def hasLineEnd : Bool → List Char → Bool
  | _, [] => false
  | false, '/' :: '*' :: r => hasLineEnd true r
  | false, c :: r => isLineEnd c || hasLineEnd false r
  | true, '*' :: '/' :: r => hasLineEnd false r
  | true, _ :: r => hasLineEnd true r

/-- Is it a hexadecimal digit? -/
def isHexDigit (c : Char) : Bool :=
  c.isDigit || ('a' ≤ c && c ≤ 'f') || ('A' ≤ c && c ≤ 'F')

/-- The number of newlines in a text. -/
def newlineCount (cs : List Char) : Nat := cs.countP (· == '\n')

/-! ## Cursors -/

/-- A position in front of a token: the dialect being read and the length of the whole script, which
stay the same throughout, and the gap before the token, the text from the token on, and the line
the token starts on. -/
structure Cursor where
  dialect : Dialect
  extent : Nat
  gap : List Char
  rest : List Char
  line : Nat

namespace Cursor

/-- The position at the start of a script. -/
def start (dialect : Dialect) (cs : List Char) : Cursor :=
  let (gap, rest) := splitGap cs
  { dialect, extent := cs.length, gap, rest, line := 1 + newlineCount gap }

/-- The position after a token with text `taken` that leaves `cs`. -/
def after (c : Cursor) (taken cs : List Char) : Cursor :=
  let (gap, rest) := splitGap cs
  { c with gap, rest, line := c.line + newlineCount taken + newlineCount gap }

/-- The same position with the gap put back in front of the text. -/
def unskipped (c : Cursor) : Cursor :=
  { c with gap := [], rest := c.gap ++ c.rest, line := c.line - newlineCount c.gap }

/-- The position after a comment that is closed by the end of its line, which joins the gap. -/
def afterLineComment (c : Cursor) : Cursor :=
  let (comment, rest) := c.rest.span fun ch => !isLineEnd ch
  let next := c.after comment rest
  { next with gap := c.gap ++ comment ++ next.gap }

/-- Does the token stand on a later line than the end of the token before it? -/
def onNewLine (c : Cursor) : Bool := hasLineEnd false c.gap

/-- The characters that cannot begin a word. -/
def isWordBreak (c : Char) : Bool :=
  c.toNat ≤ 0x1f || isScriptBlank c || c.isDigit ||
    [':', ';', '\x60', '\x22', '\x27', '@', '#', '.', ',', '|', '^', '&', '<', '=', '>', '+', '-', '*', '/',
      '\\', '%', '?', '!', '~', '(', ')', '[', ']', '{', '}'].contains c

/-- Can the character begin a word? -/
def isWordStart (c : Char) : Bool := !isWordBreak c

/-- Can the character continue a word? -/
def isWordPart (c : Char) : Bool := c.isDigit || !isWordBreak c

/-- How many characters behind its backslash belong to an escape that is part of a word: the letter
`u` with four hexadecimal digits, or with some of them in braces. -/
def wordEscapeLength (cs : List Char) : Option Nat :=
  match cs with
  | 'u' :: '{' :: ds =>
    let digits := ds.takeWhile isHexDigit
    if !digits.isEmpty && (ds.drop digits.length).head? == some '}' then some (digits.length + 3)
    else none
  | 'u' :: ds =>
    if 4 ≤ ds.length && (ds.take 4).all isHexDigit then some 5 else none
  | _ => none

/-- The rest of a word, whose first `n` characters belong to an escape that has begun, and the text
after it. -/
def splitWordFrom : Nat → List Char → List Char × List Char
  | _, [] => ([], [])
  | n + 1, c :: cs =>
    let (w, rest) := splitWordFrom n cs
    (c :: w, rest)
  | 0, c :: cs =>
    if isWordPart c then
      let (w, rest) := splitWordFrom 0 cs
      (c :: w, rest)
    else
      match if c == '\\' then wordEscapeLength cs else none with
      | some n =>
        let (w, rest) := splitWordFrom n cs
        (c :: w, rest)
      | none => ([], c :: cs)

/-- The word at the front, in characters, and the text after it; the word is empty when there is
none. A word does not start with a digit. -/
def splitWord (cs : List Char) : List Char × List Char :=
  match cs with
  | [] => ([], [])
  | c :: _ => if isWordStart c || c == '\\' then splitWordFrom 0 cs else ([], cs)

/-- The word at the position, empty when there is none. -/
def word (c : Cursor) : String := String.ofList (splitWord c.rest).1

/-- Does the text at the position start with `s`? -/
def startsWith (c : Cursor) (s : String) : Bool := s.toList.isPrefixOf c.rest

/-- The first character at the position. -/
def peek (c : Cursor) : Option Char := c.rest.head?

/-- The position after the word that stands here. -/
def afterWord (c : Cursor) : Cursor :=
  let (w, rest) := splitWord c.rest
  c.after w rest

/-! ## Statements without a semicolon -/

/-- After the letter `i` and `n`: a word that is exactly `in` or `instanceof` continues the
expression before it, any other word starts a new statement. -/
def startsStatementAfterIn (cs : List Char) : Bool :=
  match cs with
  | [] => false
  | c :: _ =>
    c.isAlpha && !("stanceof".toList.isPrefixOf cs && !((cs.drop 8).head?.any Char.isAlpha))

/-- May a text that follows a line end start a new statement? Characters that can continue an
expression do not, unless they cannot do so in this dialect at this place. -/
def startsStatement (dialect : Dialect) (afterExpression : Bool) (cs : List Char) : Bool :=
  match cs with
  | [] => true
  | '+' :: r => r.head? == some '+'
  | '-' :: r => r.head? == some '-'
  | '!' :: r => r.head? != some '='
  | 'i' :: 'n' :: r => startsStatementAfterIn r
  | '.' :: r => !dialect.hasTypes && r.head?.any Char.isDigit
  | '(' :: _ => dialect.hasTypes && !afterExpression
  | '[' :: _ => dialect.hasTypes && !afterExpression
  | c :: _ => !(['\x60', ',', ':', ';', '*', '%', '>', '<', '=', '?', '^', '|', '&', '/'].contains c)

/-- Does a run of comments, read from inside one of them, end a statement in front of the given
character? A line comment with what follows it does, unless the statement goes on with a comma or an
equals sign; a block comment does when a line ends in it and its end is not followed by one of these.
The flag says whether a line has ended in a block comment. -/
def runEndsStatement (next : Option Char) : Bool → GapMode → List Char → Bool
  | _, .plain, [] => !isContinued next
  | seen, .plain, '/' :: '/' :: r => runEndsStatement next seen .lineComment r
  | seen, .plain, '/' :: '*' :: r => runEndsStatement next seen .blockComment r
  | seen, .plain, _ :: r => runEndsStatement next seen .plain r
  | _, .lineComment, [] => !isContinued next
  | seen, .lineComment, c :: r =>
    runEndsStatement next seen (if isLineEnd c then .plain else .lineComment) r
  | _, .blockComment, [] => false
  | seen, .blockComment, '*' :: '/' :: r =>
    match r, next with
    | '/' :: r, _ => runEndsStatement next seen .plain ('/' :: r)
    | [], some '/' => false
    | [], _ => seen && !isContinued next
    | c :: _, _ => seen && !isContinued (some c)
  | seen, .blockComment, c :: r => runEndsStatement next (seen || isLineEnd c) .blockComment r
where
  /-- Does the character go on with a statement behind a comment? -/
  isContinued (c : Option Char) : Bool := c == some ',' || c == some '='

/-- Do the comments of a gap, read from inside one or from between them, end a statement in front of
the given character? A run of comments starts where no line has ended since the comment before; the
flag says whether none has. -/
def commentEndsStatement (next : Option Char) : Bool → GapMode → List Char → Bool
  | _, _, [] => false
  | fresh, .plain, '/' :: '/' :: r =>
    (fresh && runEndsStatement next false .lineComment r) ||
      commentEndsStatement next false .lineComment r
  | fresh, .plain, '/' :: '*' :: r =>
    (fresh && runEndsStatement next false .blockComment r) ||
      commentEndsStatement next false .blockComment r
  | fresh, .plain, c :: r => commentEndsStatement next (fresh && !isLineEnd c) .plain r
  | _, .lineComment, c :: r =>
    commentEndsStatement next false (if isLineEnd c then .plain else .lineComment) r
  | _, .blockComment, '*' :: '/' :: r => commentEndsStatement next true .plain r
  | _, .blockComment, _ :: r => commentEndsStatement next false .blockComment r

/-- May a statement end at this position without a semicolon? It may at the end of the script,
before a closing brace (in a dialect with types not when a type annotation follows the brace), and
at the end of a line whose successor starts a statement. In a plain script a comment may also end
one that does not end in an expression. -/
def endsStatement (afterExpression : Bool) (c : Cursor) : Bool :=
  match c.rest with
  | [] => true
  | '}' :: r =>
    !c.dialect.hasTypes || afterExpression || (r.dropWhile isScriptBlank).head? != some ':'
  | r =>
    (c.onNewLine && startsStatement c.dialect afterExpression r) ||
      (!c.dialect.hasTypes && !afterExpression &&
        commentEndsStatement r.head? true .plain c.gap)

end Cursor

/-! ## Bracket groups -/

/-- What the scan for a closing bracket is inside of. `skip` stands for one character that has been
decided on already. -/
inductive GroupFrame where
  | bracket
  | template
  | quoted (mark : Char)
  | lineComment
  | blockComment
  | regex (inClass : Bool)
  | skip

/-- Can a slash after this character start a regular expression? -/
def regexMayFollow (c : Char) : Bool :=
  ['(', ',', '=', ':', '[', '!', '&', '|', '?', '{', '}', ';', '+', '>'].contains c

/-- What is open after the character `c`, given what is open before it, the character after `c` and
the last character that was neither blank nor in a comment. -/
def GroupFrame.next (last c : Char) (following : Option Char) :
    GroupFrame → List GroupFrame → List GroupFrame
  | .skip, fs => fs
  | .quoted m, fs =>
    if c == '\\' then .skip :: .quoted m :: fs else if c == m then fs else .quoted m :: fs
  | .template, fs =>
    if c == '\\' then .skip :: .template :: fs
    else if c == '\x60' then fs
    else if c == '$' && following == some '{' then .skip :: .bracket :: .template :: fs
    else .template :: fs
  | .lineComment, fs => if isLineEnd c then fs else .lineComment :: fs
  | .blockComment, fs =>
    if c == '*' && following == some '/' then .skip :: fs else .blockComment :: fs
  | .regex inClass, fs =>
    if c == '\\' then .skip :: .regex inClass :: fs
    else if c == '[' then .regex true :: fs
    else if c == ']' then .regex false :: fs
    else if c == '/' && !inClass then fs
    else .regex inClass :: fs
  | .bracket, fs =>
    if c == '(' || c == '[' || c == '{' then .bracket :: .bracket :: fs
    else if c == ')' || c == ']' || c == '}' then fs
    else if c == '\x22' || c == '\x27' then .quoted c :: .bracket :: fs
    else if c == '\x60' then .template :: .bracket :: fs
    else if c == '/' && following == some '/' then .skip :: .lineComment :: .bracket :: fs
    else if c == '/' && following == some '*' then .skip :: .blockComment :: .bracket :: fs
    else if c == '/' && regexMayFollow last then .regex false :: .bracket :: fs
    else .bracket :: fs

/-- The text after the last bracket group that is open, or `none` when the groups are not closed.
Quotes, templates, comments and what looks like a regular expression are skipped as a whole. -/
def skipGroup (last : Char) : List GroupFrame → List Char → Option (List Char)
  | [], cs => some cs
  | _ :: _, [] => none
  | f :: fs, c :: cs =>
    skipGroup (if isScriptBlank c then last else c) (f.next last c cs.head? fs) cs

/-- The text after the bracket group that starts here, with the gap after it removed. -/
def Cursor.afterGroup? (c : Cursor) : Option (List Char) :=
  match c.rest with
  | open_ :: r => (skipGroup open_ [.bracket] r).map fun cs => (splitGap cs).2
  | [] => none

end RouteAssets.Script
