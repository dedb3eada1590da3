import RouteAssets.Table
import RouteAssets.Text.Utf8
import RouteAssets.Yaml.Scalar

/-!
# YAML tokens

The tokens of a text, with the nesting that indentation expresses made explicit. What a colon makes a
key is only seen behind it, so the place of everything that may turn out to be a key is kept until
the line ends; the colon then puts the marks of the key in front of it. A text that is broken
somewhere still has the tokens up to there.
-/

namespace RouteAssets.Yaml

/-- A line that concerns the reading of the document behind it. -/
inductive Directive where
  | version (major : Nat)
  | handle (name start : String)
  | other
  deriving DecidableEq, Repr

/-- A tag as it is written: the name of its handle, if it has one, and the rest. -/
structure TagText where
  handle : Option String
  suffix : String
  deriving DecidableEq, Repr

/-- A token. The text ends with `done`, or with `broken` where it cannot be read on. -/
inductive Token where
  | directive (d : Directive)
  | documentStart
  | documentEnd
  | blockSequence
  | blockMapping
  | blockEnd
  | flowSequence
  | flowSequenceEnd
  | flowMapping
  | flowMappingEnd
  | flowEntry
  | blockEntry
  | key
  | value
  | alias (name : String)
  | anchor (name : String)
  | tag (t : TagText)
  | scalar (plain : Bool) (text : String)
  | done
  | broken (f : Fault)
  deriving DecidableEq, Repr

/-! ## Tags and directives -/

/-- May the character occur in a tag? -/
def isTagChar (c : Char) : Bool := isNameChar c || ";/?:@&=+$,.!~*\x27()[]%".toList.contains c

/-- One byte, written as a percent sign and two digits, and those that follow it. -/
def escapedBytes : Nat → Scan (List UInt8)
  | 0 => return []
  | n + 1 => do
    if (← peek) == '%' then
      skip
      let b ← hexNumber 2 0
      return UInt8.ofNat b :: (← escapedBytes n)
    else return []

/-- The characters of a tag, with the escaped ones decoded. -/
def tagChars : Nat → Scan (List Char)
  | 0 => return []
  | n + 1 => do
    let c ← peek
    if c == '%' then
      match Text.readUtf8 (← escapedBytes ((← get).rest.length + 1)) with
      | some cs => return cs ++ (← tagChars n)
      | none => refuse
    else if isTagChar c then
      skip
      return c :: (← tagChars n)
    else return []

/-- A part of a tag. It may not be missing. -/
def tagPart : Scan String := do
  let isMissing := !isTagChar (← peek)
  let cs ← tagChars ((← get).rest.length + 1)
  if isMissing then refuse
  return String.ofList cs

/-- The handle of a tag: an exclamation mark, or a name between two. -/
def tagHandle : Scan String := do
  demand (· == '!')
  skip
  if (← peek) == ' ' then return "!"
  let name ← takeWhile isNameChar
  demand (· == '!')
  skip
  return String.ofList ('!' :: name ++ ['!'])

/-- A tag, from its exclamation mark on. -/
def tagText : Scan TagText := do
  let c := (← get).peekAt 1
  let tag ←
    if c == '<' then do
      skipMany 2
      let suffix ← tagPart
      demand (· == '>')
      skip
      pure { handle := none, suffix : TagText }
    else if isBlankOrEnd c then do
      skip
      pure { handle := none, suffix := "!" : TagText }
    else do
      let inside := ((← get).rest.drop 1).takeWhile (!isSpaceOrEnd ·)
      if inside.contains '!' then do
        let handle ← tagHandle
        pure { handle := some handle, suffix := ← tagPart : TagText }
      else do
        skip
        pure { handle := some "!", suffix := ← tagPart : TagText }
  demand isSpaceOrEnd
  return tag

/-- A whole number. -/
def wholeNumber : Scan Nat := do
  demand Char.isDigit
  return Json.digitsValue (← takeWhile Char.isDigit)

/-- What stands behind the name of a directive. -/
def directiveBody (name : String) : Scan Directive := do
  if name == "YAML" then
    skipWhile (· == ' ')
    let major ← wholeNumber
    demand (· == '.')
    skip
    let _ ← wholeNumber
    demand isSpaceOrEnd
    return .version major
  else if name == "TAG" then
    skipWhile (· == ' ')
    let handle ← tagHandle
    demand (· == ' ')
    skipWhile (· == ' ')
    let start ← tagPart
    demand isSpaceOrEnd
    return .handle handle start
  else
    skipWhile (!isBreak ·)
    return .other

/-- A directive, from its percent sign on. -/
def directive : Scan Directive := do
  skip
  let name ← takeName
  demand isSpaceOrEnd
  let d ← directiveBody name
  closeLine
  return d

/-- The name behind the mark of an anchor or an alias. -/
def anchorName : Scan String := do
  skip
  let name ← takeName
  demand fun c => isBlankOrEnd c || c == '?' || c == ':' || c == ',' || c == ']' || c == '\x7d' ||
    c == '%' || c == '@' || c == '\x60'
  return name

/-! ## Tokens in a row -/

/-- The place of what may turn out to be a key: the number of tokens in front of it, whether it must
be one, and where it starts. -/
structure KeyPlace where
  before : Nat
  isRequired : Bool
  index : Nat
  line : Nat
  column : Nat
  deriving DecidableEq, Repr

/-- How far a text has been read. The margin is the least column for the contents of the innermost
block, the margins those of the blocks around it; the tokens are kept with the newest first. -/
structure Lexer where
  cursor : Cursor
  flow : Nat
  margin : Nat
  margins : List Nat
  isKeyAllowed : Bool
  keyPlaces : List (Nat × KeyPlace)
  tokens : List Token
  isDone : Bool
  deriving Repr

/-- A lexer that has read nothing. -/
def Lexer.start (text : List Char) : Lexer :=
  { cursor := Cursor.start text, flow := 0, margin := 0, margins := [], isKeyAllowed := true,
    keyPlaces := [], tokens := [], isDone := false }

/-- A step of reading tokens. -/
abbrev Lexing (α : Type) := StateT Lexer (Except Fault) α

namespace Lexing

/-- Reads a part of the text. -/
def scan {α : Type} (s : Scan α) : Lexing α := do
  let l ← get
  let (a, cursor) ← s.run l.cursor
  set { l with cursor }
  return a

/-- Appends a token. -/
def emit (t : Token) : Lexing Unit := modify fun l => { l with tokens := t :: l.tokens }

/-- Says whether a key may start next. -/
def allowKey (allowed : Bool) : Lexing Unit := modify fun l => { l with isKeyAllowed := allowed }

/-! ### Keys -/

/-- Forgets the places of keys with a property. None of them may be a required one. -/
def forgetKeys (p : Nat × KeyPlace → Bool) : Lexing Unit := do
  let l ← get
  if l.keyPlaces.any fun k => p k && k.2.isRequired then throw .malformed
  set { l with keyPlaces := l.keyPlaces.filter (!p ·) }

/-- Forgets the place of a key at the present depth. -/
def forgetKey : Lexing Unit := do
  let flow := (← get).flow
  forgetKeys (·.1 == flow)

/-- The greatest distance between the start of a key and its colon. -/
def keyReach : Nat := 1024

/-- Forgets the places of keys that are too far back: on another line, or out of reach. -/
def forgetStaleKeys : Lexing Unit := do
  let c := (← get).cursor
  forgetKeys fun k => k.2.line != c.line || keyReach < c.index - k.2.index

/-- Keeps the present place as one where a key may start. -/
def markKey : Lexing Unit := do
  if (← get).isKeyAllowed then
    forgetKey
    modify fun l =>
      let c := l.cursor
      let place : KeyPlace :=
        { before := l.tokens.length
          isRequired := l.flow == 0 && l.margin == c.column + 1
          index := c.index, line := c.line, column := c.column }
      { l with keyPlaces := (l.flow, place) :: l.keyPlaces }

/-! ### Indentation -/

/-- Leaves all blocks whose margin is beyond a column: the margin and the margins that stay, and the
number of blocks left. -/
def unwound (least : Nat) : Nat → List Nat → Nat × List Nat × Nat
  | margin, [] => (margin, [], 0)
  | margin, outer :: outers =>
    if least < margin then
      let (margin, outers, n) := unwound least outer outers
      (margin, outers, n + 1)
    else (margin, outer :: outers, 0)

/-- Ends the blocks whose margin is greater than the given one. The flow style knows no blocks. -/
def unwind (least : Nat) : Lexing Unit := do
  let l ← get
  if l.flow == 0 then
    let (margin, margins, n) := unwound least l.margin l.margins
    set { l with margin, margins, tokens := List.replicate n Token.blockEnd ++ l.tokens }

/-- Starts a block in a column, if none has started there. Answers whether it does. -/
def indent (column : Nat) : Lexing Bool := do
  let l ← get
  if l.margin < column + 1 then
    set { l with margin := column + 1, margins := l.margin :: l.margins }
    return true
  else return false

/-! ### Steps -/

/-- Steps over blank lines and comments. Outside the flow style a key may start on a new line. -/
def toNextToken : Nat → Lexing Unit
  | 0 => return ()
  | n + 1 => do
    scan do
      skipWhile (· == ' ')
      skipComment
    if isBreak (← scan peek) then
      let _ ← scan lineBreak
      if (← get).flow == 0 then allowKey true
      toNextToken n

/-- Ends everything in front of a line that stands outside the document. -/
def leaveDocument : Lexing Unit := do
  unwind 0
  forgetKey
  allowKey false

/-- A mark of one or more characters that stands outside the document. -/
def documentMark (t : Token) : Lexing Unit := do
  leaveDocument
  scan (skipMany 3)
  emit t

/-- The end of the text. -/
def finish : Lexing Unit := do
  leaveDocument
  emit .done
  modify fun l => { l with keyPlaces := [], isDone := true }

/-- The opening mark of a flow collection. -/
def openFlow (t : Token) : Lexing Unit := do
  markKey
  modify fun l => { l with flow := l.flow + 1, isKeyAllowed := true }
  scan skip
  emit t

/-- The closing mark of a flow collection. -/
def closeFlow (t : Token) : Lexing Unit := do
  forgetKey
  modify fun l => { l with flow := l.flow - 1, isKeyAllowed := false }
  scan skip
  emit t

/-- The mark between the entries of a flow collection. -/
def flowEntry : Lexing Unit := do
  allowKey true
  forgetKey
  scan skip
  emit .flowEntry

/-- Starts a block of the given kind here unless one has started in this column. Inside a line none
may start. -/
def openBlock (t : Token) : Lexing Unit := do
  let l ← get
  if l.flow == 0 then
    unless l.isKeyAllowed do throw .malformed
    if ← indent l.cursor.column then emit t

/-- The mark of an entry of a block sequence. -/
def blockEntry : Lexing Unit := do
  openBlock .blockSequence
  allowKey true
  forgetKey
  scan skip
  emit .blockEntry

/-- The mark of a key that is no simple one. -/
def complexKey : Lexing Unit := do
  openBlock .blockMapping
  allowKey ((← get).flow == 0)
  forgetKey
  scan skip
  emit .key

/-- Puts tokens behind the first `n` of some tokens that are kept newest first. -/
def insertBehind (n : Nat) (new tokens : List Token) : List Token :=
  let k := tokens.length - n
  tokens.take k ++ new.reverse ++ tokens.drop k

/-- The mark of a value. It makes a key of what stands at the place kept for one. -/
def value : Lexing Unit := do
  let l ← get
  match Table.lookup l.flow l.keyPlaces with
  | some place =>
    set { l with keyPlaces := l.keyPlaces.filter (·.1 != l.flow) }
    let isFirst ← if l.flow == 0 then indent place.column else pure false
    let new := if isFirst then [.blockMapping, .key] else [.key]
    modify fun l => { l with
      tokens := insertBehind place.before new l.tokens, isKeyAllowed := false }
  | none =>
    openBlock .blockMapping
    allowKey (l.flow == 0)
    forgetKey
  scan skip
  emit .value

/-- Something that may be a key, on one line. -/
def keyCandidate (t : Scan Token) : Lexing Unit := do
  markKey
  allowKey false
  emit (← scan t)

/-- A plain scalar. When a line end follows it a key may start behind it. -/
def plain : Lexing Unit := do
  markKey
  let l ← get
  let (text, crossed) ← scan (plainScalar (l.flow != 0) l.margin)
  allowKey crossed
  emit (.scalar true text)

/-- A block scalar. -/
def block : Lexing Unit := do
  allowKey true
  forgetKey
  emit (.scalar false (← scan (blockScalar (← get).margin)))

/-- May a plain scalar start here? -/
def startsPlain (c : Cursor) (inFlow : Bool) : Bool :=
  let x := c.peekAt 0
  if isBlankOrEnd x then false
  else if x == '-' then !isBlankOrEnd (c.peekAt 1)
  else if x == '?' || x == ':' then !inFlow && !isBlankOrEnd (c.peekAt 1)
  else !(",[]\x7b\x7d#&*!|>\x27\x22%@\x60".toList.contains x)

/-- The next token, with the tokens that indentation puts in front of it. -/
def next : Lexing Unit := do
  toNextToken ((← get).cursor.rest.length + 1)
  forgetStaleKeys
  unwind ((← get).cursor.column + 1)
  let l ← get
  let c := l.cursor
  let inFlow := l.flow != 0
  let beforeBlank := isBlankOrEnd (c.peekAt 1)
  match c.peekAt 0 with
  | '\x00' => finish
  | '[' => openFlow .flowSequence
  | '\x7b' => openFlow .flowMapping
  | ']' => closeFlow .flowSequenceEnd
  | '\x7d' => closeFlow .flowMappingEnd
  | ',' => flowEntry
  | '*' => keyCandidate do return .alias (← anchorName)
  | '&' => keyCandidate do return .anchor (← anchorName)
  | '!' => keyCandidate do return .tag (← tagText)
  | '\x27' => keyCandidate do return .scalar false (← quotedScalar)
  | '\x22' => keyCandidate do return .scalar false (← quotedScalar)
  | x =>
    if x == '%' && c.column == 0 then
      leaveDocument
      emit (.directive (← scan directive))
    else if x == '-' && c.column == 0 && c.isMarker '-' then documentMark .documentStart
    else if x == '.' && c.column == 0 && c.isMarker '.' then documentMark .documentEnd
    else if x == '-' && beforeBlank then blockEntry
    else if x == '?' && (inFlow || beforeBlank) then complexKey
    else if x == ':' && (inFlow || beforeBlank) then value
    else if (x == '|' || x == '>') && !inFlow then block
    else if startsPlain c inFlow then plain
    else throw .malformed

end Lexing

/-- The tokens that a lexer finds in at most `n` steps, oldest first. -/
def Lexer.run : Nat → Lexer → List Token
  | 0, l => l.tokens.reverse
  | n + 1, l =>
    match Lexing.next.run l with
    | .ok ((), l) => if l.isDone then l.tokens.reverse else run n l
    | .error f => (Token.broken f :: l.tokens).reverse

/-- The text without a byte order mark in front of it. -/
def withoutMark : List Char → List Char
  | c :: cs => if c == '\ufeff' then cs else c :: cs
  | [] => []

/-- The tokens of a text. Every step takes at least one character. -/
def Token.ofText (text : List Char) : List Token :=
  if text.all isAdmitted then (Lexer.start (withoutMark text)).run (text.length + 1)
  else [.broken .malformed]

end RouteAssets.Yaml
