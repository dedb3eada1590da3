import RouteAssets.Json.Value

/-!
# Reading JSON

The reader follows the JSON grammar and admits three further numbers: `NaN`, `Infinity` and
`-Infinity`. Control characters are refused inside strings, a byte order mark in front, and text
behind the value. Two escaped halves of a surrogate pair make one character; a half on its own has
no character and becomes the replacement character. A whole number of more than 4300 digits is
refused as such.
-/

namespace RouteAssets.Json

/-- Why a text is not read. -/
inductive ReadError where
  | malformed
  | numberTooLong
  deriving DecidableEq, Repr

/-- A reader: the value at the front of a text, and the rest. -/
abbrev Read (α : Type) := List Char → Except ReadError (α × List Char)

/-- The characters that may stand between tokens. -/
def isGap (c : Char) : Bool := c == ' ' || c == '\t' || c == '\n' || c == '\r'

/-- A text without the gap in front of it. -/
def skipGap (cs : List Char) : List Char := cs.dropWhile isGap

/-! ## Strings -/

/-- A part of a string: a character, or an escaped UTF-16 unit. -/
inductive Piece where
  | char (c : Char)
  | unit (n : Nat)
  deriving DecidableEq, Repr

/-- The value of a hexadecimal digit. -/
def hexValue? (c : Char) : Option Nat :=
  if '0' ≤ c ∧ c ≤ '9' then some (c.toNat - 48)
  else if 'a' ≤ c ∧ c ≤ 'f' then some (c.toNat - 87)
  else if 'A' ≤ c ∧ c ≤ 'F' then some (c.toNat - 55)
  else none

/-- The unit that four hexadecimal digits name. -/
def unitOf? (a b c d : Char) : Option Nat := do
  return (((← hexValue? a) * 16 + (← hexValue? b)) * 16 + (← hexValue? c)) * 16 + (← hexValue? d)

/-- The character that a one-letter escape stands for. -/
def escapeOf? (c : Char) : Option Char :=
  match c with
  | '\x22' => some '\x22'
  | '\\' => some '\\'
  | '/' => some '/'
  | 'b' => some '\x08'
  | 'f' => some '\x0c'
  | 'n' => some '\n'
  | 'r' => some '\r'
  | 't' => some '\t'
  | _ => none

/-- The pieces of a string up to its closing mark, and the text after the mark. -/
def stringPieces : Read (List Piece)
  | [] => .error .malformed
  | '\\' :: 'u' :: a :: b :: c :: d :: cs =>
    match unitOf? a b c d with
    | some n => (stringPieces cs).map fun (ps, rest) => (.unit n :: ps, rest)
    | none => .error .malformed
  | '\\' :: c :: cs =>
    match escapeOf? c with
    | some e => (stringPieces cs).map fun (ps, rest) => (.char e :: ps, rest)
    | none => .error .malformed
  | c :: cs =>
    if c == '\x22' then .ok ([], cs)
    else if c.toNat < 0x20 || c == '\\' then .error .malformed
    else (stringPieces cs).map fun (ps, rest) => (.char c :: ps, rest)

/-- Is it the first half of a surrogate pair? -/
def isHighUnit (n : Nat) : Bool := 0xd800 ≤ n && n < 0xdc00

/-- Is it the second half of a surrogate pair? -/
def isLowUnit (n : Nat) : Bool := 0xdc00 ≤ n && n < 0xe000

/-- The character of a unit on its own. -/
def unitChar (n : Nat) : Char := if isHighUnit n || isLowUnit n then '\ufffd' else Char.ofNat n

/-- The characters of a list of pieces. -/
def joinPieces : List Piece → List Char
  | [] => []
  | .char c :: ps => c :: joinPieces ps
  | .unit n :: .unit m :: ps =>
    if isHighUnit n && isLowUnit m then
      Char.ofNat (0x10000 + (n - 0xd800) * 0x400 + (m - 0xdc00)) :: joinPieces ps
    else unitChar n :: joinPieces (.unit m :: ps)
  | .unit n :: ps => unitChar n :: joinPieces ps

/-- A string, from behind its opening mark. -/
def readString : Read String := fun cs =>
  (stringPieces cs).map fun (ps, rest) => (String.ofList (joinPieces ps), rest)

/-! ## Numbers -/

/-- Is it an ASCII digit? -/
def isDigit (c : Char) : Bool := '0' ≤ c && c ≤ '9'

/-- The value of a list of decimal digits. -/
def digitsValue (ds : List Char) : Nat := ds.foldl (fun n d => 10 * n + (d.toNat - 48)) 0

/-- The fractional digits at the front of a text, if a point and a digit are there. -/
def fraction? (cs : List Char) : Option (List Char × List Char) :=
  match cs with
  | '.' :: rest =>
    match rest.span isDigit with
    | ([], _) => none
    | (ds, rest) => some (ds, rest)
  | _ => none

/-- The exponent at the front of a text, if a complete one is there. -/
def exponent? (cs : List Char) : Option (Int × List Char) :=
  match cs with
  | e :: rest =>
    if e == 'e' || e == 'E' then
      let (negative, rest) :=
        match rest with
        | '-' :: r => (true, r)
        | '+' :: r => (false, r)
        | r => (false, r)
      match rest.span isDigit with
      | ([], _) => none
      | (ds, rest) =>
        let n : Int := digitsValue ds
        some (if negative then -n else n, rest)
    else none
  | [] => none

/-- The largest number of digits of a whole number. -/
def digitLimit : Nat := 4300

/-- A number from its sign and its digits before the point on. -/
def readNumber (negative : Bool) (ds rest : List Char) : Except ReadError (Number × List Char) :=
  let (fraction, rest, hasFraction) :=
    match fraction? rest with
    | some (fs, r) => (fs, r, true)
    | none => ([], rest, false)
  let (exponent, rest, hasExponent) :=
    match exponent? rest with
    | some (e, r) => (e, r, true)
    | none => (0, rest, false)
  if hasFraction || hasExponent then
    .ok (.real (.ofDecimal negative (digitsValue (ds ++ fraction)) (exponent - fraction.length)), rest)
  else if digitLimit < ds.length then .error .numberTooLong
  else
    let n : Int := digitsValue ds
    .ok (.integer (if negative then -n else n), rest)

/-- A number without its sign. -/
def readUnsigned (negative : Bool) : Read Number
  | '0' :: cs => readNumber negative ['0'] cs
  | cs =>
    match cs.span isDigit with
    | ([], _) => .error .malformed
    | (ds, rest) => readNumber negative ds rest

/-! ## Words -/

/-- The text after a word. -/
def afterWord (word : String) (cs : List Char) : Option (List Char) :=
  if word.toList.isPrefixOf cs then some (cs.drop word.length) else none

/-- The words that stand for values. -/
def words : List (String × Json) :=
  [("null", null), ("true", bool true), ("false", bool false), ("NaN", number (.real .nan)),
    ("Infinity", number (.real (.infinite false))), ("-Infinity", number (.real (.infinite true)))]

/-- A word or a number. -/
def readScalar : Read Json := fun cs =>
  match words.findSome? fun (w, j) => (afterWord w cs).map fun rest => (j, rest) with
  | some found => .ok found
  | none =>
    let number := fun (r : Except ReadError (Number × List Char)) =>
      r.map fun (n, rest) => (number n, rest)
    match cs with
    | '-' :: rest => number (readUnsigned true rest)
    | _ => number (readUnsigned false cs)

/-! ## Values -/

/-- What follows an item: a comma, or the closing mark. Answers whether there is a further item. -/
def readSeparator (close : Char) : Read Bool := fun cs =>
  match skipGap cs with
  | c :: rest =>
    if c == ',' then .ok (true, rest) else if c == close then .ok (false, rest) else .error .malformed
  | [] => .error .malformed

/-- At most `n` items with a comma between any two, up to the closing mark. -/
def readItems {α : Type} (item : Read α) (close : Char) : Nat → Read (List α)
  | 0, _ => .error .malformed
  | n + 1, cs => do
    let (x, rest) ← item (skipGap cs)
    let (more, rest) ← readSeparator close rest
    if more then
      let (xs, rest) ← readItems item close n rest
      return (x :: xs, rest)
    else return ([x], rest)

/-- Items up to the closing mark, from behind the opening mark. -/
def readContainer {α : Type} (item : Read α) (close : Char) (n : Nat) : Read (List α) := fun cs =>
  match skipGap cs with
  | c :: rest => if c == close then .ok ([], rest) else readItems item close n (c :: rest)
  | [] => .error .malformed

/-- A member of an object. -/
def readMember (value : Read Json) : Read (String × Json)
  | '\x22' :: cs => do
    let (name, rest) ← readString cs
    match skipGap rest with
    | ':' :: rest =>
      let (j, rest) ← value (skipGap rest)
      return ((name, j), rest)
    | _ => .error .malformed
  | _ => .error .malformed

/-- A value that opens at most `depth` containers inside one another, each of at most `depth`
items. -/
def readValue : Nat → Read Json
  | 0, _ => .error .malformed
  | depth + 1, cs =>
    match cs with
    | '\x22' :: rest => (readString rest).map fun (s, rest) => (string s, rest)
    | '[' :: rest =>
      (readContainer (readValue depth) ']' depth rest).map fun (xs, rest) => (array xs, rest)
    | '\x7b' :: rest =>
      (readContainer (readMember (readValue depth)) '\x7d' depth rest).map
        fun (ms, rest) => (ofMembers ms, rest)
    | _ => readScalar cs

/-- The value that a text holds. A text of some length has fewer items and levels than that. -/
def read (text : String) : Except ReadError Json :=
  let cs := text.toList
  match readValue (cs.length + 1) (skipGap cs) with
  | .ok (j, rest) => if (skipGap rest).isEmpty then .ok j else .error .malformed
  | .error e => .error e

end RouteAssets.Json
