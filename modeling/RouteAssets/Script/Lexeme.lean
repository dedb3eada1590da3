import RouteAssets.Script.Rule

/-!
# Lexemes

Literals are read character by character. An escape inside a string or a template is followed
through a small state, so that a text with a broken escape is refused where it breaks. Templates
and markup have inner text that is not made of tokens: there the gap that a cursor has split off is
put back first.
-/

namespace RouteAssets.Script

/-! ## Escapes -/

/-- How much of an escape has been read. `complete` is also the state outside an escape. -/
inductive EscapeState where
  | complete
  | opened
  | carriageReturn
  | hexDigits (needed : Nat)
  | unicode
  | braced (nonempty : Bool)

/-- The state after one more character of an escape, or `none` where the escape breaks. -/
def EscapeState.next (c : Char) : EscapeState → Option EscapeState
  | complete => some (if c == '\\' then opened else complete)
  | opened =>
    some (if c == 'x' then hexDigits 2 else if c == 'u' then unicode
      else if c == '\r' then carriageReturn else complete)
  | carriageReturn => some (if c == '\\' then opened else complete)
  | hexDigits n => if isHexDigit c then some (if n ≤ 1 then complete else hexDigits (n - 1)) else none
  | unicode => if c == '{' then some (braced false) else if isHexDigit c then some (hexDigits 3) else none
  | braced nonempty =>
    if isHexDigit c then some (braced true)
    else if c == '}' && nonempty then some complete
    else none

/-- The rest of an escape whose backslash has been read; `acc` holds the characters read, last
first. -/
def escapeTail : EscapeState → List Char → List Char → Option (List Char × List Char)
  | .complete, acc, cs => some (acc.reverse, cs)
  | .opened, _, [] => none
  | .hexDigits _, _, [] => none
  | .unicode, _, [] => none
  | .braced _, _, [] => none
  | .carriageReturn, acc, [] => some (acc.reverse, [])
  | .carriageReturn, acc, c :: cs =>
    if c == '\n' then some ((c :: acc).reverse, cs) else some (acc.reverse, c :: cs)
  | state, acc, c :: cs =>
    match state.next c with
    | none => none
    | some state' => escapeTail state' (c :: acc) cs

/-- An escape at the front of a text. -/
def splitEscape : List Char → Option (List Char × List Char)
  | '\\' :: cs => escapeTail .opened ['\\'] cs
  | _ => none

/-! ## Strings -/

/-- Can the state be left by a character that belongs to no escape? -/
def EscapeState.isOutside : EscapeState → Bool
  | complete | carriageReturn => true
  | _ => false

/-- The rest of a string whose opening mark has been read. A line end closes no string. -/
def stringTail (mark : Char) : EscapeState → List Char → List Char → Option (List Char × List Char)
  | _, _, [] => none
  | state, acc, c :: cs =>
    if state.isOutside && c == mark then some ((c :: acc).reverse, cs)
    else
      match state with
      | .complete =>
        if c == '\n' || c == '\r' then none else (state.next c).bind fun s => stringTail mark s (c :: acc) cs
      | .carriageReturn =>
        if c == '\r' then none else (state.next c).bind fun s => stringTail mark s (c :: acc) cs
      | _ => (state.next c).bind fun s => stringTail mark s (c :: acc) cs

/-- A string literal at the front of a text. -/
def splitString : List Char → Option (List Char × List Char)
  | c :: cs => if c == '\x22' || c == '\x27' then stringTail c .complete [c] cs else none
  | [] => none

/-! ## Numbers -/

/-- Digits of a class, single underscores between them allowed. -/
def splitDigits (isDigit : Char → Bool) : List Char → List Char × List Char
  | [] => ([], [])
  | c :: cs =>
    if isDigit c then
      let (ds, rest) := splitDigits isDigit cs
      (c :: ds, rest)
    else if c == '_' && cs.head?.any isDigit then
      let (ds, rest) := splitDigits isDigit cs
      (c :: ds, rest)
    else ([], c :: cs)

/-- An exponent, if there is one. -/
def splitExponent (cs : List Char) : List Char × List Char :=
  match cs with
  | e :: r =>
    if e == 'e' || e == 'E' then
      let (sign, r') := match r with
        | s :: r' => if s == '+' || s == '-' then ([s], r') else ([], r)
        | [] => ([], r)
      match splitDigits Char.isDigit r' with
      | ([], _) => ([], cs)
      | (ds, rest) => (e :: sign ++ ds, rest)
    else ([], cs)
  | [] => ([], [])

/-- The `n` that makes an integer a big one. -/
def splitBigMark : List Char → List Char × List Char
  | 'n' :: r => (['n'], r)
  | cs => ([], cs)

/-- A number with a radix letter after its leading zero. -/
def splitRadix (letter : Char) (isDigit : Char → Bool) (cs : List Char) :
    Option (List Char × List Char) :=
  match cs.head?.any isDigit, splitDigits isDigit cs with
  | true, (ds, rest) =>
    let (mark, rest) := splitBigMark rest
    some ('0' :: letter :: ds ++ mark, rest)
  | false, _ => none

/-- A number that starts with a digit and has no radix letter. -/
def splitDecimal (cs : List Char) : Option (List Char × List Char) :=
  let (whole, rest) := splitDigits Char.isDigit cs
  match rest with
  | '.' :: r =>
    let (fraction, r) := if r.head?.any Char.isDigit then splitDigits Char.isDigit r else ([], r)
    let (exponent, r) := splitExponent r
    some (whole ++ '.' :: fraction ++ exponent, r)
  | 'n' :: r => some (whole ++ ['n'], r)
  | _ =>
    let (exponent, r) := splitExponent rest
    some (whole ++ exponent, r)

/-- A number at the front of a text. -/
def splitNumber (cs : List Char) : Option (List Char × List Char) :=
  match cs with
  | '0' :: l :: r =>
    if l == 'x' || l == 'X' then splitRadix l isHexDigit r
    else if l == 'o' || l == 'O' then splitRadix l (fun c => '0' ≤ c && c ≤ '7') r
    else if l == 'b' || l == 'B' then splitRadix l (fun c => c == '0' || c == '1') r
    else splitDecimal cs
  | '.' :: r =>
    match splitDigits Char.isDigit r with
    | ([], _) => none
    | (ds, rest) =>
      let (exponent, rest) := splitExponent rest
      if r.head?.any Char.isDigit then some ('.' :: ds ++ exponent, rest) else none
  | c :: _ => if c.isDigit then splitDecimal cs else none
  | [] => none

/-! ## Regular expressions -/

/-- The rest of a regular expression whose opening slash has been read, up to its closing slash. -/
def regexTail (inClass escaped : Bool) (acc : List Char) : List Char → Option (List Char × List Char)
  | [] => none
  | c :: cs =>
    if c == '\n' then none
    else if escaped then regexTail inClass false (c :: acc) cs
    else if c == '\\' then regexTail inClass true (c :: acc) cs
    else if c == '[' then regexTail true false (c :: acc) cs
    else if c == ']' then regexTail false false (c :: acc) cs
    else if c == '/' && !inClass then some ((c :: acc).reverse, cs)
    else regexTail inClass false (c :: acc) cs

/-- A regular expression with its flags at the front of a text. -/
def splitRegex : List Char → Option (List Char × List Char)
  | '/' :: c :: cs =>
    if c == '*' || c == '/' then none
    else
      match regexTail false false ['/'] (c :: cs) with
      | none => none
      | some (body, rest) =>
        let (flags, rest) := rest.span fun f => 'a' ≤ f && f ≤ 'z'
        some (body ++ flags, rest)
  | _ => none

/-! ## Inner text of templates and markup -/

/-- The part of a template before its next escape, substitution or end. -/
def splitTemplateText : List Char → List Char × List Char
  | [] => ([], [])
  | c :: cs =>
    if c == '\x60' || c == '\\' || (c == '$' && cs.head? == some '{') then ([], c :: cs)
    else
      let (text, rest) := splitTemplateText cs
      (c :: text, rest)

/-- A character reference such as `&nbsp;` or `&#x2F;` at the front of a text. -/
def splitCharacterReference : List Char → Option (List Char × List Char)
  | '&' :: '#' :: l :: cs =>
    if l == 'x' || l == 'X' then
      closed ['&', '#', l] (cs.span isHexDigit) 6
    else closed ['&', '#'] ((l :: cs).span Char.isDigit) 5
  | '&' :: cs => closed ['&'] (cs.span Char.isAlpha) 30
  | _ => none
where
  /-- One to `limit` characters, closed by a semicolon. -/
  closed (opening : List Char) (body : List Char × List Char) (limit : Nat) :
      Option (List Char × List Char) :=
    match body with
    | ([], _) => none
    | (ds, ';' :: rest) => if ds.length ≤ limit then some (opening ++ ds ++ [';'], rest) else none
    | _ => none

/-- Text of a markup element, up to the next tag, expression or character reference. -/
def splitMarkupText (cs : List Char) : Option (List Char × List Char) :=
  match cs.span fun c => !(['<', '>', '{', '}', '&'].contains c) with
  | ([], _) => none
  | found => some found

/-- The rest of a quoted attribute value. An ampersand in front of a letter or a number sign must
begin a character reference. -/
def attributeTail (mark : Char) : Nat → List Char → List Char → Option (List Char × List Char)
  | 0, _, _ => none
  | _ + 1, _, [] => none
  | n + 1, acc, c :: cs =>
    if c == mark then some ((c :: acc).reverse, cs)
    else if c == '&' && cs.head?.any (fun d => d == '#' || d.isAlpha) then
      match splitCharacterReference (c :: cs) with
      | none => none
      | some (ref, rest) => attributeTail mark n (ref.reverse ++ acc) rest
    else attributeTail mark n (c :: acc) cs

/-- A quoted attribute value at the front of a text. It has no escapes and may span lines. -/
def splitAttributeValue : List Char → Option (List Char × List Char)
  | c :: cs => if c == '\x22' || c == '\x27' then attributeTail c (cs.length + 1) [c] cs else none
  | [] => none

/-- A markup name: a word with hyphens. -/
def splitMarkupName (cs : List Char) : Option (List Char × List Char) :=
  match cs with
  | [] => none
  | c :: _ =>
    if Cursor.isWordStart c then some (cs.span fun d => Cursor.isWordPart d || d == '-') else none

/-- The line that names an interpreter, allowed at the very start of a script only. -/
def splitHashBang : List Char → Option (List Char × List Char)
  | '#' :: '!' :: cs => 
    let (line, rest) := cs.span (· != '\n')
    some ('#' :: '!' :: line, rest)
  | _ => none

/-! ## Rules for literals -/

namespace Rule

/-- A string literal. -/
def string : Rule := lexeme .string splitString

/-- A number. -/
def number : Rule := lexeme .number splitNumber

/-- A regular expression. -/
def regex : Rule := lexeme .regex splitRegex

/-- Applies a rule with the gap put back in front of the text. -/
def raw (r : Rule) : Rule := fun c => r c.unskipped

/-- A piece of template text, without blanks being skipped. -/
def templateText : Rule := raw fun c =>
  match splitTemplateText c.rest with
  | ([], _) => none
  | (text, rest) => emit .templateText text rest c

/-- A template whose substitutions are read by `inner`. -/
def template (inner : Rule) : Rule :=
  node .template <| seq
    [ sym "\x60",
      many (alt
        [ templateText,
          raw (lexeme .escape splitEscape),
          raw (node .templateSubstitution (seq [sym "$\x7b", inner, sym "\x7d"])) ]),
      raw (sym "\x60") ]

end Rule

end RouteAssets.Script
