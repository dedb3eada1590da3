/-!
# Concrete syntax trees of scripts

A script is kept as a lossless tree: every token carries the blanks and comments that stand before
it, so the source text of any node is the concatenation of its tokens with the gaps between them.
Comments are never nodes. Nothing in this module depends on how a tree was obtained; all searches
in the library run over `Tree.preorder`.

Two walks are defined. `Tree.preorder` is the recursive definition; `Tree.walk` keeps a stack of
pending siblings and visits one node per step. They list the same nodes.
-/

namespace RouteAssets.Script

/-- What a single token is. The first two are the anonymous kinds: they matter only by their text.
All others are named and count as children of the node they stand in. -/
inductive TokenKind where
  | punctuation
  | keyword
  | identifier
  | propertyName
  | shorthandName
  | privateName
  | typeName
  | string
  | number
  | regex
  | constant
  | receiver
  | importWord
  | templateText
  | escape
  | markupText
  deriving DecidableEq, Repr

/-- Punctuation and keywords are anonymous, every other token is a named child. -/
def TokenKind.isNamed : TokenKind → Bool
  | .punctuation | .keyword => false
  | _ => true

/-- The constructs a node can stand for. -/
inductive NodeKind where
  | program
  | hashBangLine
  | importStatement
  | importClause
  | namespaceImport
  | namedImports
  | importSpecifier
  | importRequire
  | importAlias
  | importAttribute
  | fromClause
  | exportStatement
  | exportClause
  | exportSpecifier
  | namespaceExport
  | lexicalDeclaration
  | variableDeclaration
  | usingDeclaration
  | variableDeclarator
  | initializer
  | functionDeclaration
  | functionSignature
  | classDeclaration
  | interfaceDeclaration
  | typeAliasDeclaration
  | enumDeclaration
  | moduleDeclaration
  | ambientDeclaration
  | block
  | expressionStatement
  | ifStatement
  | elseClause
  | switchStatement
  | switchBody
  | switchCase
  | forStatement
  | forInStatement
  | whileStatement
  | doStatement
  | tryStatement
  | catchClause
  | finallyClause
  | withStatement
  | breakStatement
  | continueStatement
  | returnStatement
  | throwStatement
  | debuggerStatement
  | labeledStatement
  | emptyStatement
  | parenthesized
  | sequence
  | assignment
  | ternary
  | binary
  | unary
  | update
  | await
  | yield
  | asExpression
  | satisfiesExpression
  | nonNull
  | typeAssertion
  | instantiation
  | call
  | new
  | member
  | subscript
  | metaProperty
  | arguments
  | spread
  | template
  | templateSubstitution
  | object
  | pair
  | method
  | computedName
  | array
  | arrowFunction
  | functionExpression
  | parameters
  | parameter
  | classExpression
  | classHeritage
  | classBody
  | field
  | staticBlock
  | decorator
  | objectPattern
  | arrayPattern
  | pairPattern
  | assignmentPattern
  | restPattern
  | markupElement
  | markupTag
  | markupAttribute
  | markupExpression
  | typeAscription
  | typeArguments
  | typeParameters
  | typeParameter
  | typeExpression
  | objectType
  | typeMember
  | enumBody
  deriving DecidableEq, Repr

/-- A token: its kind, the blanks and comments before it, its own text, and the line (counted from
one) on which its text starts. -/
structure Token where
  kind : TokenKind
  gap : String
  text : String
  line : Nat
  deriving DecidableEq, Repr

/-- A lossless concrete syntax tree. -/
inductive Tree where
  | leaf (token : Token)
  | node (kind : NodeKind) (children : List Tree)
  deriving Repr

namespace Tree

/-! ## Shape -/

/-- The direct children; a token has none. -/
def children : Tree → List Tree
  | leaf _ => []
  | node _ ts => ts

/-- Is this a node of the given kind? -/
def isNode (k : NodeKind) : Tree → Bool
  | leaf _ => false
  | node k' _ => k == k'

/-- Is this a token of the given kind? -/
def isToken (k : TokenKind) : Tree → Bool
  | leaf t => k == t.kind
  | node _ _ => false

/-- Is this an anonymous token with the given text? -/
def isWord (w : String) : Tree → Bool
  | leaf t => !t.kind.isNamed && t.text == w
  | node _ _ => false

/-- Nodes and named tokens are named; punctuation and keywords are not. -/
def isNamed : Tree → Bool
  | leaf t => t.kind.isNamed
  | node _ _ => true

/-- The direct children that are named. -/
def namedChildren (t : Tree) : List Tree := t.children.filter isNamed

/-- The first direct child that is a node of kind `k`. -/
def child? (k : NodeKind) (t : Tree) : Option Tree := t.children.find? (isNode k)

/-! ## Tokens and text -/

mutual

/-- The tokens of a tree from left to right. -/
def tokens : Tree → List Token
  | leaf t => [t]
  | node _ ts => tokensOf ts

/-- The tokens of a list of siblings from left to right. -/
def tokensOf : List Tree → List Token
  | [] => []
  | t :: ts => t.tokens ++ tokensOf ts

end

/-- The source text from the first of some tokens to the last, with the gap before the first left
out. -/
def textOfTokens : List Token → String
  | [] => ""
  | t :: ts => t.text ++ String.join (ts.map fun u => u.gap ++ u.text)

/-- The source text of a tree, without the gap in front of it. -/
def text (t : Tree) : String := textOfTokens t.tokens

/-- The line on which a tree starts. An empty tree starts on the first line. -/
def line (t : Tree) : Nat :=
  match t.tokens with
  | [] => 1
  | u :: _ => u.line

/-! ## Walks -/

mutual

/-- Every subtree, a node before its children and the children from left to right. -/
def preorder : Tree → List Tree
  | leaf t => [leaf t]
  | node k ts => node k ts :: preorderOf ts

/-- The subtrees of a list of siblings, in the order of `preorder`. -/
def preorderOf : List Tree → List Tree
  | [] => []
  | t :: ts => t.preorder ++ preorderOf ts

end

mutual

/-- The number of subtrees. -/
def size : Tree → Nat
  | leaf _ => 1
  | node _ ts => sizeOf ts + 1

/-- The number of subtrees of a list of siblings. -/
def sizeOf : List Tree → Nat
  | [] => 0
  | t :: ts => t.size + sizeOf ts

end

/-- One step of the stack walk per unit of fuel: the top of the stack is visited and its children
are pushed in front of the pending trees. -/
def walkStack : Nat → List Tree → List Tree
  | 0, _ => []
  | _ + 1, [] => []
  | n + 1, t :: stack => t :: walkStack n (t.children ++ stack)

/-- The walk with an explicit stack of pending trees. -/
def walk (t : Tree) : List Tree := walkStack t.size [t]

/-- The first subtree in walking order that satisfies `p`. -/
def find? (p : Tree → Bool) (t : Tree) : Option Tree := t.walk.find? p

/-! ## Equations -/

@[simp] theorem preorder_leaf (t : Token) : (leaf t).preorder = [leaf t] := rfl

@[simp] theorem preorder_node (k : NodeKind) (ts : List Tree) :
    (node k ts).preorder = node k ts :: preorderOf ts := rfl

@[simp] theorem preorderOf_nil : preorderOf [] = [] := rfl

@[simp] theorem preorderOf_cons (t : Tree) (ts : List Tree) :
    preorderOf (t :: ts) = t.preorder ++ preorderOf ts := rfl

@[simp] theorem size_leaf (t : Token) : (leaf t).size = 1 := rfl

@[simp] theorem size_node (k : NodeKind) (ts : List Tree) :
    (node k ts).size = sizeOf ts + 1 := rfl

@[simp] theorem walkStack_nil (n : Nat) : walkStack n [] = [] := by cases n <;> rfl

@[simp] theorem walkStack_cons (n : Nat) (t : Tree) (stack : List Tree) :
    walkStack (n + 1) (t :: stack) = t :: walkStack n (t.children ++ stack) := rfl

end Tree

end RouteAssets.Script
