import RouteAssets.Config.Setting
import RouteAssets.Text.Blank
import RouteAssets.Text.Search
import RouteAssets.Yaml.Cursor

/-!
# Types of YAML scalars

A plain scalar without a tag has the first type whose written forms include it: truth value, floating
point number, whole number, merge mark, null, time, or the mark of a default; otherwise it is a text.
A written form may be followed by one line end. Reading a text as a value of a type is a second step,
which a tag may ask for also where the forms do not include the text.
-/

namespace RouteAssets.Yaml

open RouteAssets.Text

/-- The meaning of a tag. -/
inductive Tag where
  | null
  | truth
  | whole
  | decimal
  | time
  | text
  | merge
  | default
  | list
  | mapping
  | pairs
  | unknown
  deriving DecidableEq, Repr

/-- The names of the tags that have a meaning, behind the common start of all of them. -/
def Tag.names : List (String × Tag) :=
  [("null", .null), ("bool", .truth), ("int", .whole), ("float", .decimal), ("timestamp", .time),
    ("str", .text), ("merge", .merge), ("value", .default), ("seq", .list), ("map", .mapping),
    ("pairs", .pairs), ("omap", .pairs)]

/-- What the names of these tags start with. -/
def Tag.home : String := "tag:yaml.org,2002:"

/-- The tag with a name. -/
def Tag.ofName (name : String) : Tag :=
  if startsWith name Tag.home then
    (Table.lookup (dropFirst Tag.home.length name) Tag.names).getD .unknown
  else .unknown

/-! ## Written forms -/

/-- Is it a digit or an underscore, which separates digits? -/
def isDigitOrGap (c : Char) : Bool := Json.isDigit c || c == '_'

/-- Does a text consist of a digit and of digits and underscores behind it? -/
def isDigitRun : List Char → Bool
  | [] => false
  | c :: cs => Json.isDigit c && cs.all isDigitOrGap

/-- Is it a digit of a number to the base sixty? -/
def isSixtieth : List Char → Bool
  | [d] => Json.isDigit d
  | [a, b] => '0' ≤ a && a ≤ '5' && Json.isDigit b
  | _ => false

/-- A text without a sign in front of it. -/
def unsigned : List Char → List Char
  | c :: cs => if c == '-' || c == '+' then cs else c :: cs
  | [] => []

/-- A text without the marks that stand between digits. -/
def withoutGaps (cs : List Char) : List Char := cs.filter (· != '_')

/-- Is it a whole number without its sign? -/
def isUnsignedWhole : List Char → Bool
  | [] => false
  | '0' :: 'b' :: ds => !ds.isEmpty && ds.all fun c => c == '0' || c == '1' || c == '_'
  | '0' :: 'x' :: ds => !ds.isEmpty && ds.all fun c => (Json.hexValue? c).isSome || c == '_'
  | '0' :: ds => ds.all fun c => ('0' ≤ c && c ≤ '7') || c == '_'
  | cs =>
    match splitOnChar ':' cs with
    | first :: rest => isDigitRun first && rest.all isSixtieth
    | [] => false

/-- Is it nothing, or an exponent with its sign? -/
def isExponent : List Char → Bool
  | [] => true
  | e :: sign :: ds =>
    (e == 'e' || e == 'E') && (sign == '-' || sign == '+') && !ds.isEmpty && ds.all Json.isDigit
  | _ => false

/-- Is it a floating point number, from its point on? -/
def isFraction (cs : List Char) : Bool := isExponent (cs.dropWhile isDigitOrGap)

/-- Is it a floating point number? The words for what is no number, and numbers without a digit
before the point, have no sign. -/
def isDecimal (cs : List Char) : Bool :=
  let body := unsigned cs
  let hasSign := body.length < cs.length
  match body.span (· != '.') with
  | (_, []) => false
  | ([], _ :: after) =>
    ["inf", "Inf", "INF"].contains (String.ofList after) ||
      (!hasSign && (["nan", "NaN", "NAN"].contains (String.ofList after) ||
        (Json.isDigit (after.headD ' ') && isFraction after)))
  | (before, _ :: after) =>
    match splitOnChar ':' before with
    | [first] => isDigitRun first && isFraction after
    | first :: rest => isDigitRun first && rest.all isSixtieth && after.all isDigitOrGap
    | [] => false

/-- The words for truth values, in small letters. -/
def truthWords : List (String × Bool) :=
  [("yes", true), ("no", false), ("true", true), ("false", false), ("on", true), ("off", false)]

/-- A word with a capital letter in front. -/
def capitalised (s : String) : String :=
  match s.toList with
  | c :: cs => String.ofList (c.toUpper :: cs)
  | [] => s

/-- Is it a word in small letters, in capital letters, or with one capital letter? -/
def isWordForm (word s : String) : Bool :=
  s == word || s == capitalised word || s == String.ofList (word.toList.map Char.toUpper)

/-- Is it a time? A date on its own has two digits for month and day. -/
def isTime (cs : List Char) : Bool :=
  match Time.ofChars? cs with
  | some t => t.clock.isSome || cs.length == 10
  | none => false

/-- The type of a plain text. -/
def Tag.ofPlain (s : String) : Tag :=
  let cs := s.toList
  let form := if cs.getLast? == some '\n' && 1 < cs.length then cs.dropLast else cs
  let word := String.ofList form
  if truthWords.any fun (w, _) => isWordForm w word then .truth
  else if isDecimal form then .decimal
  else if isUnsignedWhole (unsigned form) then .whole
  else if word == "<<" then .merge
  else if word == "" || word == "~" || isWordForm "null" word then .null
  else if isTime form then .time
  else if word == "=" then .default
  else .text

/-! ## Values -/

/-- A text without blanks at both ends. -/
def trimmed (cs : List Char) : List Char :=
  ((cs.dropWhile isBlank).reverse.dropWhile isBlank).reverse

/-- The value of some digits to a base. -/
def digitsTo? (base : Nat) (ds : List Char) : Option Nat :=
  if ds.isEmpty then none
  else ds.foldlM (fun n d => do
    let v ← Json.hexValue? d
    if v < base then some (base * n + v) else none) 0

/-- The letter that may stand behind a zero in front of a number to a base. -/
def baseLetter (base : Nat) : Char := if base == 2 then 'b' else if base == 8 then 'o' else 'x'

/-- A whole number to a base, with a sign and blanks around it. Only decimal numbers are limited in
length, and only the others may name their base. -/
def wholeTo (base : Nat) (cs : List Char) : Except Fault Int :=
  let cs := trimmed cs
  let isNegative := cs.head? == some '-'
  let body := unsigned cs
  let ds :=
    match body with
    | '0' :: c :: rest => if base != 10 && c.toLower == baseLetter base then rest else body
    | _ => body
  if base == 10 && Json.digitLimit < ds.length then .error .invalidValue
  else
    match digitsTo? base ds with
    | some n => .ok (if isNegative then -n else n)
    | none => .error .invalidValue

/-- The parts of a number to the base sixty, put together. -/
def sixtieths (parts : List Int) : Int := parts.foldl (fun n d => 60 * n + d) 0

/-- A whole number without its sign. -/
def readUnsignedWhole (cs : List Char) : Except Fault Int :=
  match cs with
  | [] => .error .emptyNumber
  | ['0'] => .ok 0
  | '0' :: 'b' :: ds => wholeTo 2 ds
  | '0' :: 'x' :: ds => wholeTo 16 ds
  | '0' :: _ => wholeTo 8 cs
  | _ =>
    if cs.contains ':' then ((splitOnChar ':' cs).mapM (wholeTo 10)).map sixtieths
    else wholeTo 10 cs

/-- The whole number that a text denotes. -/
def readWhole (s : String) : Except Fault Int :=
  let cs := withoutGaps s.toList
  if cs.isEmpty then .error .emptyNumber
  else (readUnsignedWhole (unsigned cs)).map fun n => if cs.head? == some '-' then -n else n

/-- The digits and the exponent of a decimal number without sign. -/
def decimalParts? (cs : List Char) : Option (Nat × Int) :=
  let whole := cs.takeWhile Json.isDigit
  let rest := cs.dropWhile Json.isDigit
  let (fraction, rest) :=
    match rest with
    | '.' :: r => (r.takeWhile Json.isDigit, r.dropWhile Json.isDigit)
    | r => ([], r)
  if whole.isEmpty && fraction.isEmpty then none
  else
    let digits := Json.digitsValue (whole ++ fraction)
    match rest with
    | [] => some (digits, -fraction.length)
    | _ =>
      match Json.exponent? rest with
      | some (e, []) => some (digits, e - fraction.length)
      | _ => none

/-- A floating point number with a sign and blanks around it. -/
def decimalOf (cs : List Char) : Except Fault Binary64 :=
  let cs := trimmed cs
  let isNegative := cs.head? == some '-'
  let body := unsigned cs
  let word := lower (String.ofList body)
  if word == "inf" || word == "infinity" then .ok (.infinite isNegative)
  else if word == "nan" then .ok .nan
  else
    match decimalParts? body with
    | some (digits, e) => .ok (.ofDecimal isNegative digits e)
    | none => .error .invalidValue

/-- The parts of a number to the base sixty, the last one first, put together from there. -/
def sumOfSixtieths : Nat → Binary64 → List Binary64 → Binary64
  | _, sum, [] => sum
  | base, sum, d :: ds => sumOfSixtieths (base * 60) (sum.addMagnitudes (d.scale base)) ds

/-- A floating point number without its sign, in small letters. -/
def readUnsignedDecimal (cs : List Char) : Except Fault Binary64 :=
  if cs == ".inf".toList then .ok (.infinite false)
  else if cs == ".nan".toList then .ok .nan
  else if cs.contains ':' then do
    let parts ← (splitOnChar ':' cs).mapM decimalOf
    return sumOfSixtieths 1 (.finite false 0 (-1074)) parts.reverse
  else decimalOf cs

/-- The floating point number that a text denotes. -/
def readDecimal (s : String) : Except Fault Binary64 :=
  let cs := (withoutGaps s.toList).map Char.toLower
  if cs.isEmpty then .error .emptyNumber
  else (readUnsignedDecimal (unsigned cs)).map fun x => if cs.head? == some '-' then x.neg else x

/-- The time that a text denotes. It must be one of the calendar. -/
def readTime (s : String) : Except Fault Time :=
  match Time.ofChars? s.toList with
  | some t => if t.isValid then .ok t else .error .invalidValue
  | none => .error .invalidTime

/-- The value that a text denotes under a tag. Tags of lists and mappings have no texts, and the
merge mark and the mark of a default are no values. -/
def readScalar (tag : Tag) (s : String) : Except Fault Scalar :=
  match tag with
  | .null => .ok .null
  | .truth =>
    match Table.lookup (lower s) truthWords with
    | some b => .ok (.truth b)
    | none => .error .unknownTruth
  | .whole => (readWhole s).map fun i => .number (.integer i)
  | .decimal => (readDecimal s).map fun x => .number (.real x)
  | .time => (readTime s).map .time
  | .text => .ok (.text s)
  | _ => .error .malformed

end RouteAssets.Yaml
