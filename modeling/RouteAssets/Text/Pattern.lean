/-!
# File name patterns

In a pattern a star stands for any text, a question mark for any character, and a bracketed set for
any character in it, or outside it after an exclamation mark; line ends and slashes are characters
like any other, and nothing can be escaped. A bracket that is never closed stands for itself. Inside
a set a hyphen between two characters makes a range, unless one of the two already belongs to the
range before; a range whose ends are in the wrong order is left out together with them.
-/

namespace RouteAssets.Text

/-- One position of a pattern. -/
inductive PatternItem where
  | star
  | any
  | char (c : Char)
  | set (negated : Bool) (members : List Char) (ranges : List (Char × Char))
  deriving DecidableEq, Repr

/-- A pattern. -/
abbrev Pattern := List PatternItem

namespace Pattern

/-! ## Sets -/

/-- The inside of a set split at the hyphens that make ranges, and so into pieces between whose ends
the ranges run. `taken` is the number of characters that cannot be such a hyphen; `piece` is the
piece so far, last character first. -/
def rangePieces : Nat → List Char → List Char → List (List Char)
  | _, piece, [] => [piece.reverse]
  | 0, piece, '-' :: cs => piece.reverse :: rangePieces 2 [] cs
  | 0, piece, c :: cs => rangePieces 0 (c :: piece) cs
  | taken + 1, piece, c :: cs => rangePieces taken (c :: piece) cs

/-- A hyphen at the end of a set belongs to the piece before it. -/
def closePieces : List (List Char) → List (List Char)
  | [p, []] => [p ++ ['-']]
  | [] => []
  | p :: ps => p :: closePieces ps

/-- Puts a piece in front of others. When the range between it and the next piece is empty the two
ends go, and what is left of the two pieces is one piece. -/
def joinPiece (p : List Char) : List (List Char) → List (List Char)
  | [] => [p]
  | q :: qs =>
    match p.getLast?, q.head? with
    | some low, some high =>
      if high.toNat < low.toNat then (p.dropLast ++ q.tail) :: qs else p :: q :: qs
    | _, _ => p :: q :: qs

/-- The pieces of a set without empty ranges, from the last piece to the first. -/
def proper (ps : List (List Char)) : List (List Char) := ps.foldr joinPiece []

/-- The ranges between pieces. -/
def rangesOf : List (List Char) → List (Char × Char)
  | p :: q :: qs =>
    match p.getLast?, q.head? with
    | some low, some high => (low, high) :: rangesOf (q :: qs)
    | _, _ => rangesOf (q :: qs)
  | _ => []

/-- The set of some pieces. An exclamation mark in front negates it. -/
def setOf : List (List Char) → PatternItem
  | ('!' :: p) :: ps => .set true (p ++ ps.flatten) (rangesOf (p :: ps))
  | ps => .set false ps.flatten (rangesOf ps)

/-- The set with the given inside. The first character, after an exclamation mark, is never a hyphen
that makes a range. -/
def setItem (inside : List Char) : PatternItem :=
  let taken := if inside.head? == some '!' then 2 else 1
  setOf (proper (closePieces (rangePieces taken [] inside)))

/-- The inside of a set and the text behind its closing bracket. A bracket at the very start, or
behind an exclamation mark there, does not close the set. -/
def splitSet? (cs : List Char) : Option (List Char × List Char) :=
  let (lead, rest) :=
    match cs with
    | '!' :: ']' :: r => (['!', ']'], r)
    | '!' :: r => (['!'], r)
    | ']' :: r => ([']'], r)
    | r => ([], r)
  match rest.dropWhile (· != ']') with
  | _ :: after => some (lead ++ rest.takeWhile (· != ']'), after)
  | [] => none

/-! ## Reading -/

/-- The items of a pattern text, in at most `n` of them. -/
def itemsUpTo : Nat → List Char → Pattern
  | 0, _ => []
  | _ + 1, [] => []
  | n + 1, c :: cs =>
    if c == '*' then .star :: itemsUpTo n cs
    else if c == '?' then .any :: itemsUpTo n cs
    else if c == '[' then
      match splitSet? cs with
      | some (inside, rest) => setItem inside :: itemsUpTo n rest
      | none => .char c :: itemsUpTo n cs
    else .char c :: itemsUpTo n cs

/-- The pattern that a text denotes. -/
def ofString (s : String) : Pattern := itemsUpTo s.length s.toList

/-! ## Matching -/

/-- Does one character stand at a position? A star is not a position of one character. -/
def admits (c : Char) : PatternItem → Bool
  | .star => false
  | .any => true
  | .char d => c == d
  | .set negated members ranges =>
    negated != (members.contains c ||
      ranges.any fun (low, high) => low.toNat ≤ c.toNat && c.toNat ≤ high.toNat)

/-- Does some end of a text satisfy a test? -/
def someSuffix (test : List Char → Bool) : List Char → Bool
  | [] => test []
  | c :: cs => test (c :: cs) || someSuffix test cs

/-- Does a pattern match the whole of a text? -/
def isMatch : Pattern → List Char → Bool
  | [], cs => cs.isEmpty
  | .star :: ps, cs => someSuffix (isMatch ps) cs
  | _ :: _, [] => false
  | p :: ps, c :: cs => admits c p && isMatch ps cs

end Pattern

/-- Does a text match a pattern text? -/
def matchesPattern (pattern s : String) : Bool := (Pattern.ofString pattern).isMatch s.toList

end RouteAssets.Text
