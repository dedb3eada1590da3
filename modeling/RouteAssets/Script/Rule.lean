import RouteAssets.Script.Cursor
import RouteAssets.Script.Tree

/-!
# Reading rules

A rule reads trees from a position and answers what it read together with the position after it,
or nothing when it does not apply. Rules are combined by sequence, ordered choice and repetition;
a choice that fails leaves no trace, so the next alternative starts where the first one did.

A repetition is bounded by the length of the script: every round reads at least one character, so
the bound is never what ends it.
-/

namespace RouteAssets.Script

/-- Reads a list of sibling trees from a position. -/
abbrev Rule := Cursor → Option (List Tree × Cursor)

namespace Rule

/-! ## Combination -/

/-- Reads nothing and applies everywhere. -/
def nothing : Rule := fun c => some ([], c)

/-- Applies nowhere. -/
def fail : Rule := fun _ => none

/-- Reads one rule after another and keeps all that was read. -/
def seqOnto (read : List Tree) : List Rule → Rule
  | [], c => some (read, c)
  | r :: rs, c =>
    match r c with
    | none => none
    | some (ts, c') => seqOnto (read ++ ts) rs c'

/-- One rule after another. -/
def seq (rs : List Rule) : Rule := seqOnto [] rs

/-- The first rule that applies. -/
def alt : List Rule → Rule
  | [], _ => none
  | r :: rs, c =>
    match r c with
    | some found => some found
    | none => alt rs c

/-- The rule if it applies, nothing otherwise. -/
def opt (r : Rule) : Rule := fun c =>
  match r c with
  | some found => some found
  | none => some ([], c)

/-- As many rounds of a rule as apply, at most `n`. -/
def repeatUpTo (r : Rule) : Nat → List Tree → Rule
  | 0, read, c => some (read, c)
  | n + 1, read, c =>
    match r c with
    | none => some (read, c)
    | some (ts, c') => repeatUpTo r n (read ++ ts) c'

/-- As many rounds of a rule as apply. -/
def many (r : Rule) : Rule := fun c => repeatUpTo r (c.extent + 1) [] c

/-- Wraps what a rule reads into one node. -/
def node (k : NodeKind) (r : Rule) : Rule := fun c =>
  match r c with
  | none => none
  | some (ts, c') => some ([.node k ts], c')

/-- Applies, without reading, where the test holds. -/
def guard (p : Cursor → Bool) : Rule := fun c => if p c then some ([], c) else none

/-- Applies, without reading, where the rule applies. -/
def ahead (r : Rule) : Rule := fun c => (r c).map fun _ => ([], c)

/-- Applies, without reading, where the rule does not apply. -/
def notAhead (r : Rule) : Rule := fun c =>
  match r c with
  | some _ => none
  | none => some ([], c)

/-- Picks the rule by looking at the position. -/
def select (f : Cursor → Rule) : Rule := fun c => f c c

/-- Extends the tree that was read first, as long as an extension applies, at most `n` times. An
extension is given the tree so far and reads the node that replaces it. -/
def extendUpTo (extension : Tree → Rule) : Nat → Tree → Rule
  | 0, t, c => some ([t], c)
  | n + 1, t, c =>
    match extension t c with
    | some ([t'], c') => extendUpTo extension n t' c'
    | _ => some ([t], c)

/-- A rule that reads one tree, followed by as many extensions of it as apply. -/
def extended (base : Rule) (extension : Tree → Rule) : Rule := fun c =>
  match base c with
  | some ([t], c') => extendUpTo extension (c'.extent + 1) t c'
  | _ => none

/-- The node of kind `k` whose first child was read before and whose other children are read by
`r`. -/
def nodeAfter (k : NodeKind) (first : Tree) (r : Rule) : Rule := fun c =>
  match r c with
  | none => none
  | some (ts, c') => some ([.node k (first :: ts)], c')

/-! ## Tokens -/

/-- The token of kind `k` that consists of `taken` and leaves `rest`. -/
def emit (k : TokenKind) (taken rest : List Char) : Rule := fun c =>
  let token : Token :=
    { kind := k, gap := String.ofList c.gap, text := String.ofList taken, line := c.line }
  some ([.leaf token], c.after taken rest)

/-- A token of kind `k` cut off by a splitting function. -/
def lexeme (k : TokenKind) (split : List Char → Option (List Char × List Char)) : Rule := fun c =>
  match split c.rest with
  | none => none
  | some (taken, rest) => emit k taken rest c

/-- The given punctuation. -/
def sym (s : String) : Rule := fun c =>
  if c.startsWith s then emit .punctuation s.toList (c.rest.drop s.length) c else none

/-- A word that satisfies the test, as a token of kind `k`. -/
def wordThat (k : TokenKind) (p : String → Bool) : Rule := fun c =>
  match Cursor.splitWord c.rest with
  | ([], _) => none
  | (w, rest) => if p (String.ofList w) then emit k w rest c else none

/-- Any word, as a token of kind `k`. -/
def anyWord (k : TokenKind) : Rule := wordThat k fun _ => true

/-- The given word as a token of kind `k`. -/
def wordAs (k : TokenKind) (w : String) : Rule := wordThat k (· == w)

/-- The given keyword. -/
def kw (w : String) : Rule := wordAs .keyword w

/-- The given keyword, with the next token on the same line. -/
def kwHere (w : String) : Rule := seq [kw w, guard fun c => !c.onNewLine]

/-- The end of the script. -/
def atEnd : Rule := guard fun c => c.rest.isEmpty

/-! ## Lists -/

/-- One or more items with separators between them. -/
def sepBy1 (item separator : Rule) : Rule := seq [item, many (seq [separator, item])]

/-- Any number of items, possibly missing ones, with commas between them. -/
def commaSeparated (item : Rule) : Rule := seq [opt item, many (seq [sym ",", opt item])]

/-- One or more items with commas between them and perhaps one after the last. -/
def commaTerminated (item : Rule) : Rule := seq [sepBy1 item (sym ","), opt (sym ",")]

/-! ## Ends of statements -/

/-- A semicolon, or a place where it can be left out. -/
def semicolon (afterExpression : Bool) : Rule :=
  alt [sym ";", guard (Cursor.endsStatement afterExpression)]

/-! ## Equations -/

@[simp] theorem seqOnto_nil (read : List Tree) (c : Cursor) : seqOnto read [] c = some (read, c) :=
  rfl

@[simp] theorem alt_nil (c : Cursor) : alt [] c = none := rfl

theorem alt_cons_of_some {r : Rule} {rs : List Rule} {c : Cursor} {found : List Tree × Cursor}
    (h : r c = some found) : alt (r :: rs) c = some found := by
  simp [alt, h]

theorem alt_cons_of_none {r : Rule} {rs : List Rule} {c : Cursor} (h : r c = none) :
    alt (r :: rs) c = alt rs c := by
  simp [alt, h]

end Rule

end RouteAssets.Script
