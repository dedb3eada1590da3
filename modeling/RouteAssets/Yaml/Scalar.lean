import RouteAssets.Json.Reader
import RouteAssets.Yaml.Cursor

/-!
# Written forms of YAML scalars

A scalar is written plainly, between quotation marks, or as an indented block. Inside the first two a
line end stands for a space, and each further one for itself. The margin is the least column in which
the contents of the innermost block may start.
-/

namespace RouteAssets.Yaml

/-- What stands for a line end and the empty lines behind it. -/
def foldLines (first breaks : List Char) : List Char :=
  if first != ['\n'] then first ++ breaks
  else if breaks.isEmpty then [' ']
  else breaks

/-! ## Plain scalars -/

/-- Is it a mark of the flow style? -/
def isFlowMark (c : Char) : Bool := c == ',' || c == '[' || c == ']' || c == '{' || c == '}'

/-- The part of a plain scalar up to the next blank. A colon ends it in front of a blank and, in the
flow style, in front of a mark; there marks and question marks end it too. -/
def plainRun (inFlow : Bool) : List Char → List Char
  | [] => []
  | c :: cs =>
    let next := cs.headD '\x00'
    if isBlankOrEnd c || (c == ':' && (isBlankOrEnd next || (inFlow && isFlowMark next))) ||
        (inFlow && (isFlowMark c || c == '?')) then []
    else c :: plainRun inFlow cs

/-- Steps over empty lines, unless a document marker follows one of them. -/
def emptyLines : Nat → Scan (Option (List Char))
  | 0 => return some []
  | n + 1 => do
    skipWhile (· == ' ')
    if isBreak (← peek) then
      let b ← lineBreak
      if (← get).isDocumentMarker then return none
      return (← emptyLines n).map (b ++ ·)
    else return some []

/-- What joins two parts of a plain scalar, and whether a line ends between them. Nothing joins them
where the scalar is over. -/
def plainJoint : Scan (List Char × Bool) := do
  let blanks ← takeWhile (· == ' ')
  if isBreak (← peek) then
    let first ← lineBreak
    if (← get).isDocumentMarker then return ([], true)
    match ← emptyLines (← get).rest.length with
    | some breaks => return (foldLines first breaks, true)
    | none => return ([], true)
  else return (blanks, false)

/-- The parts of a plain scalar behind some joint, and whether a line end follows the last. -/
def plainParts (inFlow : Bool) (margin : Nat) : Nat → List Char → Bool → Scan (List Char × Bool)
  | 0, _, crossed => return ([], crossed)
  | n + 1, joint, crossed => do
    let c ← get
    let part := plainRun inFlow c.rest
    if c.peekAt 0 == '#' || part.isEmpty then return ([], crossed)
    skipMany part.length
    let (next, crossed) ← plainJoint
    let outside := !inFlow && (← get).column < margin
    if next.isEmpty || (← peek) == '#' || outside then return (joint ++ part, crossed)
    let (more, crossed) ← plainParts inFlow margin n next crossed
    return (joint ++ part ++ more, crossed)

/-- A plain scalar, and whether a line end follows it. -/
def plainScalar (inFlow : Bool) (margin : Nat) : Scan (String × Bool) := do
  let (cs, crossed) ← plainParts inFlow margin ((← get).rest.length + 1) [] false
  return (String.ofList cs, crossed)

/-! ## Quoted scalars -/

/-- Steps over the blanks and empty lines behind a line end. No document may end here. -/
def quotedBreaks : Nat → Scan (List Char)
  | 0 => refuse
  | n + 1 => do
    if (← get).isDocumentMarker then refuse
    skipWhile fun c => c == ' ' || c == '\t'
    if isBreak (← peek) then
      let b ← lineBreak
      return b ++ (← quotedBreaks n)
    else return []

/-- The blanks inside a quoted scalar, folded. -/
def quotedBlanks : Scan (List Char) := do
  let blanks ← takeWhile fun c => c == ' ' || c == '\t'
  if isBreak (← peek) then
    let first ← lineBreak
    return foldLines first (← quotedBreaks ((← get).rest.length + 1))
  else return blanks

/-- The character that a one-letter escape stands for. -/
def escapeOf? (c : Char) : Option Char :=
  match c with
  | '0' => some '\x00'
  | 'a' => some '\x07'
  | 'b' => some '\x08'
  | 't' => some '\t'
  | '\t' => some '\t'
  | 'n' => some '\n'
  | 'v' => some '\x0b'
  | 'f' => some '\x0c'
  | 'r' => some '\r'
  | 'e' => some '\x1b'
  | ' ' => some ' '
  | '\x22' => some '\x22'
  | '\\' => some '\\'
  | '/' => some '/'
  | 'N' => some '\x85'
  | '_' => some '\xa0'
  | 'L' => some '\u2028'
  | 'P' => some '\u2029'
  | _ => none

/-- The number of hexadecimal digits behind the letter of a numeric escape. -/
def escapeWidth? (c : Char) : Option Nat :=
  match c with
  | 'x' => some 2
  | 'u' => some 4
  | 'U' => some 8
  | _ => none

/-- A number of exactly `n` hexadecimal digits. -/
def hexNumber : Nat → Nat → Scan Nat
  | 0, value => return value
  | n + 1, value => do
    match Json.hexValue? (← peek) with
    | some d => skip; hexNumber n (16 * value + d)
    | none => refuse

/-- The character with a number. Half a surrogate pair has none and becomes the replacement
character; a number beyond the range of characters is a fault of its own. -/
def numberedChar (n : Nat) : Scan Char :=
  if 0x10ffff < n then throw .invalidValue
  else if 0xd800 ≤ n && n < 0xe000 then return '\ufffd'
  else return Char.ofNat n

/-- What an escape stands for, from behind its backslash. A line end and the blanks behind it stand
for nothing. -/
def escapeSequence : Scan (List Char) := do
  let c ← peek
  if let some e := escapeOf? c then
    skip
    return [e]
  else if let some width := escapeWidth? c then
    skip
    return [← numberedChar (← hexNumber width 0)]
  else if isBreak c then
    let _ ← lineBreak
    quotedBreaks ((← get).rest.length + 1)
  else refuse

/-- The text of a quoted scalar from behind its opening mark. -/
def quotedParts (mark : Char) : Nat → Scan (List Char)
  | 0 => refuse
  | n + 1 => do
    let cursor ← get
    let c := cursor.peekAt 0
    if c == '\x00' then refuse
    else if c == mark && mark == '\x27' && cursor.peekAt 1 == mark then
      skipMany 2
      return mark :: (← quotedParts mark n)
    else if c == mark then
      skip
      return []
    else if c == '\\' && mark == '\x22' then
      skip
      let part ← escapeSequence
      return part ++ (← quotedParts mark n)
    else if c == ' ' || c == '\t' || isBreak c then
      let part ← quotedBlanks
      return part ++ (← quotedParts mark n)
    else
      skip
      return c :: (← quotedParts mark n)

/-- A quoted scalar. -/
def quotedScalar : Scan String := do
  let mark ← peek
  skip
  return String.ofList (← quotedParts mark ((← get).rest.length + 1))

/-! ## Block scalars -/

/-- What becomes of the line ends behind a block scalar. -/
inductive Chomping where
  | clip
  | strip
  | keep
  deriving DecidableEq, Repr

/-- The mark for the line ends, if one is here. -/
def chompingMark : Scan Chomping := do
  let c ← peek
  if c == '+' then skip; return .keep
  else if c == '-' then skip; return .strip
  else return .clip

/-- The digit for the indentation, if one is here. It may not be zero. -/
def indentationDigit : Scan (Option Nat) := do
  let c ← peek
  if c == '0' then refuse
  else if c.isDigit then skip; return some (c.toNat - 48)
  else return none

/-- The marks behind the opening mark of a block scalar, in either order. -/
def blockHeader : Scan (Chomping × Option Nat) := do
  let chomping ← chompingMark
  let width ← indentationDigit
  let chomping ← if chomping == .clip && width.isSome then chompingMark else pure chomping
  demand isSpaceOrEnd
  closeLine
  return (chomping, width)

/-- The empty lines in front of a block scalar, and the column its first line starts in at most. -/
def leadingLines : Nat → Nat → Scan (List Char × Nat)
  | 0, deepest => return ([], deepest)
  | n + 1, deepest => do
    let c ← peek
    if c == ' ' then
      skip
      leadingLines n (max deepest (← get).column)
    else if isBreak c then
      let b ← lineBreak
      let (bs, deepest) ← leadingLines n deepest
      return (b ++ bs, deepest)
    else return ([], deepest)

/-- Steps over spaces up to a column. -/
def indentTo (column : Nat) : Scan Unit := do
  let c ← get
  let spaces := c.rest.takeWhile (· == ' ')
  skipMany (min spaces.length (column - c.column))

/-- The empty lines between two lines of a block scalar. -/
def blockBreaks (indent : Nat) : Nat → Scan (List Char)
  | 0 => return []
  | n + 1 => do
    indentTo indent
    if isBreak (← peek) then
      let b ← lineBreak
      return b ++ (← blockBreaks indent n)
    else return []

/-- Does a line of the block scalar start here? -/
def atBlockLine (indent : Nat) : Scan Bool := do
  let c ← get
  return c.column == indent && !c.rest.isEmpty

/-- The lines of a block scalar behind some empty ones, its last line end, and the empty lines that
follow it. -/
def blockLines (folded : Bool) (indent : Nat) :
    Nat → List Char → Scan (List Char × List Char × List Char)
  | 0, breaks => return ([], [], breaks)
  | n + 1, breaks => do
    if !(← atBlockLine indent) then return ([], [], breaks)
    let isFlush := (← peek) != ' ' && (← peek) != '\t'
    let line ← takeWhile (!isBreak ·)
    let ending ← lineBreak
    let more ← blockBreaks indent ((← get).rest.length + 1)
    if ← atBlockLine indent then
      let isNextFlush := (← peek) != ' ' && (← peek) != '\t'
      let joint :=
        if folded && ending == ['\n'] && isFlush && isNextFlush then
          if more.isEmpty then [' '] else []
        else ending
      let (lines, ending, after) ← blockLines folded indent n more
      return (breaks ++ line ++ joint ++ lines, ending, after)
    else return (breaks ++ line, ending, more)

/-- A block scalar. -/
def blockScalar (margin : Nat) : Scan String := do
  let folded := (← peek) == '>'
  skip
  let (chomping, width) ← blockHeader
  let least := max margin 1
  let fuel := (← get).rest.length + 1
  let (indent, breaks) ← match width with
    | some w => do
      let indent := least + w - 1
      pure (indent, ← blockBreaks indent fuel)
    | none => do
      let (breaks, deepest) ← leadingLines fuel 0
      pure (max least deepest, breaks)
  let (lines, ending, after) ← blockLines folded indent fuel breaks
  let tail := match chomping with
    | .strip => []
    | .clip => ending
    | .keep => ending ++ after
  return String.ofList (lines ++ tail)

end RouteAssets.Yaml
