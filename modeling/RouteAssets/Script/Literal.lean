import RouteAssets.Script.Tree

/-!
# Values of literals

The value of a string is the text between its marks with every escape replaced. The escape rule is
simple: a backslash and the character after it stand for that character, except for the four letters
that stand for a newline, a tab, a carriage return and NUL. A template has a value in the same sense
when it has no substitution. Parentheses and the type operators that leave a value alone are looked
through.
-/

namespace RouteAssets.Script

/-! ## Escapes -/

/-- What an escaped character stands for. -/
def escapedChar (c : Char) : Char :=
  match c with
  | 'n' => '\n'
  | 't' => '\t'
  | 'r' => '\r'
  | '0' => '\x00'
  | c => c

/-- Replaces every escape, from left to right. A backslash at the very end stays. -/
def unescape : List Char → List Char
  | [] => []
  | '\\' :: c :: cs => escapedChar c :: unescape cs
  | c :: cs => c :: unescape cs

/-- The text between the first and the last character. -/
def innerText (s : String) : List Char := s.toList.tail.dropLast

/-! ## Wrappers -/

/-- The wrappers that leave the value of what they hold alone. -/
def NodeKind.isTransparent : NodeKind → Bool
  | .parenthesized | .asExpression | .satisfiesExpression | .nonNull => true
  | _ => false

namespace Tree

mutual

/-- The expression inside any number of transparent wrappers. -/
def unwrap : Tree → Tree
  | leaf t => leaf t
  | node k ts => if k.isTransparent then unwrapFirst (node k ts) ts else node k ts

/-- Unwraps the first named tree of a list; without one the given tree stands for itself. -/
def unwrapFirst (whole : Tree) : List Tree → Tree
  | [] => whole
  | t :: ts => if t.isNamed then unwrap t else unwrapFirst whole ts

end

/-- The value of a string, or of a template without substitutions. -/
def literalValue? (t : Tree) : Option String :=
  match t with
  | leaf u => if u.kind == .string then some (String.ofList (unescape (innerText u.text))) else none
  | node k ts =>
    if k == .template && !ts.any (isNode .templateSubstitution) then
      some (String.ofList (unescape (innerText (node k ts).text)))
    else none

/-- The value of a string or template inside any number of transparent wrappers. -/
def stringValue? (t : Tree) : Option String := t.unwrap.literalValue?

end Tree

end RouteAssets.Script
