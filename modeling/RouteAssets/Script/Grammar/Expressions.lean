import RouteAssets.Script.Grammar.Functions
import RouteAssets.Script.Grammar.Markup

/-!
# Expressions

An expression is a chain of operands joined by binary operators, climbed by precedence, with a
ternary around it. Assignment is read at the operand it assigns to. A type ascription with `as` or
`satisfies` takes the whole chain to its left, so it is joined at the lowest level only.

Three constructs need to look further than the next token, and decide on the bracket group that
starts here: an arrow function, a destructuring assignment, and a call with type arguments.
-/

namespace RouteAssets.Script

open Rule

/-! ## Operators -/

/-- The operators, longer ones before their beginnings. -/
def operators : List String :=
  [ ">>>=", "===", "!==", "**=", "<<=", ">>=", ">>>", "&&=", "||=", "??=", "...",
    "=>", "==", "!=", "<=", ">=", "&&", "||", "??", "++", "--", "+=", "-=", "*=", "/=", "%=", "&=",
    "|=", "^=", "<<", ">>", "**", "?.",
    "+", "-", "*", "/", "%", "&", "|", "^", "<", ">", "=", "!", "~", "?", ":" ]

/-- The operator at a position: a word, or the longest run of operator characters that is one. A
question mark and a point in front of a digit are two operators. -/
def Cursor.operator (c : Cursor) : String :=
  let w := c.word
  if w == "in" || w == "instanceof" then w
  else
    match operators.find? fun s => s.toList.isPrefixOf c.rest with
    | some "?." => if (c.rest.drop 2).head?.any Char.isDigit then "?" else "?."
    | some s => s
    | none => ""

/-- The precedence of a binary operator, a higher number binding tighter. -/
def binaryLevel (s : String) : Option Nat :=
  match s with
  | "||" | "??" => some 1
  | "&&" => some 2
  | "|" => some 3
  | "^" => some 4
  | "&" => some 5
  | "==" | "!=" | "===" | "!==" => some 6
  | "<" | ">" | "<=" | ">=" | "in" | "instanceof" => some 7
  | "<<" | ">>" | ">>>" => some 8
  | "+" | "-" => some 9
  | "*" | "/" | "%" => some 10
  | "**" => some 11
  | _ => none

/-- The lowest level of the right operand: powers group to the right, all else to the left. -/
def rightLevel (level : Nat) : Nat := if level == 11 then 11 else level + 1

/-- Is it an assignment operator? -/
def isAssignment (s : String) : Bool :=
  [ "=", "+=", "-=", "*=", "/=", "%=", "**=", "<<=", ">>=", ">>>=", "&=", "^=", "|=", "&&=", "||=",
    "??=" ].contains s

/-- The operator at the position, as a token. -/
def operatorToken (s : String) : Rule :=
  if s == "in" || s == "instanceof" then kw s else sym s

/-! ## Arrow functions -/

/-- Can the parameters of an arrow function start here? -/
def atArrowParameters (inTernary : Bool) (c : Cursor) : Bool :=
  (c.startsWith "(" &&
      (c.groupThen "=>" || (c.dialect.hasTypes && !inTernary && c.groupThen ":"))) ||
    (c.dialect.hasTypes && c.startsWith "<")

/-- The parameters of an arrow function; none takes a return type inside a ternary. -/
def arrowSignature (g : Grammar) (inTernary : Bool) : Rule :=
  seq
    [ guard (atArrowParameters inTernary),
      opt (typed (typeParameters g)),
      parameters g,
      opt (typed (seq [guard fun _ => !inTernary, returnAscription g])) ]

/-- An arrow function. -/
def arrowFunction (g : Grammar) (inTernary : Bool) : Rule :=
  node .arrowFunction <| seq
    [ alt
        [ seq
            [ asyncHere,
              alt [seq [guard fun c => c.wordThen "=>", reference], arrowSignature g inTernary] ],
          seq [guard fun c => c.wordThen "=>", reference],
          arrowSignature g inTernary ],
      sym "=>",
      alt [seq [guard fun c => c.startsWith "\x7b", g .block], g (.expression inTernary)] ]

/-! ## Primary expressions -/

/-- An array literal. Elements may be missing. -/
def array (g : Grammar) : Rule :=
  node .array <| seq
    [ sym "[",
      commaSeparated (alt
        [ node .spread (seq [sym "...", g (.expression false)]),
          g (.expression false) ]),
      sym "]" ]

/-- An item of an object literal. -/
def objectItem (g : Grammar) : Rule :=
  alt
    [ node .spread (seq [sym "...", g (.expression false)]),
      node .pair (seq [memberName g, sym ":", g (.expression false)]),
      method g objectMethodModifiers,
      seq
        [ select fun c => wordThat .shorthandName (isBinding c.dialect),
          ahead (alt [sym ",", sym "\x7d"]) ] ]

/-- An object literal. Items may be missing between commas. -/
def object (g : Grammar) : Rule :=
  node .object (seq [sym "\x7b", commaSeparated (objectItem g), sym "\x7d"])

/-- A chain of members after `new`, without calls. -/
def constructed (g : Grammar) : Rule :=
  extended
    (alt
      [ parenthesized g,
        seq [guard fun c => c.word == "new" || c.word == "class" || c.word == "function" ||
            c.word == "import", g (.operand false)],
        wordAs .receiver "this",
        wordAs .receiver "super",
        reference,
        template (g .expressions),
        array g,
        object g ])
    fun t => alt
      [ nodeAfter .member t (seq [sym ".", alt [anyWord .propertyName, privateName]]),
        nodeAfter .subscript t (seq [sym "[", g .expressions, sym "]"]),
        nodeAfter .call t (template (g .expressions)),
        typed (nodeAfter .nonNull t (seq
          [guard fun c => !c.onNewLine && !c.startsWith "!=", sym "!"])) ]

/-- An object creation, or the meta property `new.target`. -/
def newExpression (g : Grammar) : Rule :=
  alt
    [ node .metaProperty (seq [kw "new", sym ".", kw "target"]),
      node .new (seq
        [ kw "new",
          constructed g,
          opt (typed (seq [typeArguments g, guard fun c => c.operator != ">"])),
          opt (arguments g) ]) ]

/-- What the word `import` can begin inside an expression. -/
def importExpression (g : Grammar) : Rule :=
  alt
    [ node .call (seq
        [wordAs .importWord "import", opt (typed (typeArguments g)), arguments g]),
      node .metaProperty (seq [wordAs .importWord "import", sym ".", kw "meta"]),
      node .member (seq
        [wordAs .importWord "import", alt [sym ".", sym "?."], anyWord .propertyName]) ]

/-- A primary expression that starts with a word. -/
def wordExpression (g : Grammar) (inTernary : Bool) : Rule :=
  select fun c =>
    match c.word with
    | "function" => functionExpression g
    | "class" => classExpression g
    | "new" => newExpression g
    | "import" => importExpression g
    | "this" | "super" => anyWord .receiver
    | "null" | "true" | "false" | "undefined" => anyWord .constant
    | "async" => alt [functionExpression g, arrowFunction g inTernary, reference]
    | _ =>
      if c.wordThen "=>" then alt [arrowFunction g inTernary, reference] else reference

/-- A primary expression. -/
def primary (g : Grammar) (inTernary : Bool) : Rule :=
  select fun c =>
    match c.peek with
    | none => fail
    | some ch =>
      if ch == '(' then
        if atArrowParameters inTernary c then alt [arrowFunction g inTernary, parenthesized g]
        else parenthesized g
      else if ch == '[' then array g
      else if ch == '{' then object g
      else if ch == '\x60' then template (g .expressions)
      else if ch == '\x22' || ch == '\x27' then string
      else if ch.isDigit || ch == '.' then number
      else if ch == '/' then regex
      else if ch == '@' then classExpression g
      else if ch == '#' then seq [privateName, ahead (kw "in")]
      else wordExpression g inTernary

/-! ## Suffixes -/

/-- Can no operand start here? Then type arguments before this place are not operators. -/
def atNoOperand (c : Cursor) : Bool :=
  match c.peek with
  | none => true
  | some ch => [')', ']', '}', ',', ';', ':', '?', '=', '|', '&', '.'].contains ch

/-- A member, an index, a call or a type argument list after an expression. -/
def suffix (g : Grammar) (t : Tree) : Rule :=
  select fun c =>
    match c.peek with
    | some '.' =>
      nodeAfter .member t (seq
        [notAhead (sym "..."), sym ".", alt [anyWord .propertyName, privateName]])
    | some '[' => nodeAfter .subscript t (seq [sym "[", g .expressions, sym "]"])
    | some '(' => nodeAfter .call t (arguments g)
    | some '\x60' => nodeAfter .call t (template (g .expressions))
    | some '?' =>
      if c.operator == "?." then alt
        [ nodeAfter .call t (seq [sym "?.", opt (typed (typeArguments g)), arguments g]),
          nodeAfter .subscript t (seq [sym "?.", sym "[", g .expressions, sym "]"]),
          nodeAfter .member t (seq [sym "?.", alt [anyWord .propertyName, privateName]]) ]
      else fail
    | some '!' =>
      if c.dialect.hasTypes && !c.onNewLine && c.operator == "!" then
        nodeAfter .nonNull t (sym "!")
      else fail
    | some '<' => typed (alt
        [ nodeAfter .call t (seq [typeArguments g, alt [arguments g, template (g .expressions)]]),
          nodeAfter .instantiation t (seq [typeArguments g, guard atNoOperand]) ])
    | _ => fail

/-! ## Operands -/

/-- Can the tree stand to the left of an assignment operator? -/
def isAssignable : Tree → Bool
  | .leaf t => t.kind == .identifier || t.text == "undefined"
  | .node k _ => [.member, .subscript, .parenthesized, .nonNull].contains k

/-- A primary expression with its suffixes, and what it is assigned, stepped or used as. -/
def postfixed (g : Grammar) (inTernary : Bool) : Rule := fun c =>
  match extended (primary g inTernary) (suffix g) c with
  | some ([t], c') =>
    let op := c'.operator
    if isAssignment op && isAssignable t then
      nodeAfter .assignment t (seq [sym op, g (.expression inTernary)]) c'
    else if (op == "++" || op == "--") && !c'.onNewLine then nodeAfter .update t (sym op) c'
    else some ([t], c')
  | _ => none

/-- Is the bracket group that starts here assigned to? -/
def atDestructuring (c : Cursor) : Bool :=
  (c.startsWith "\x7b" || c.startsWith "[") &&
    c.groupThen "=" && !c.groupThen "==" && !c.groupThen "=>"

/-- An operand that starts with a word that is an operator. -/
def wordOperand (g : Grammar) (inTernary : Bool) (w : String) : Rule :=
  match w with
  | "typeof" | "void" | "delete" => node .unary (seq [kw w, g (.operand inTernary)])
  | "await" => node .await (seq [kw w, g (.operand inTernary)])
  | "yield" =>
    node .yield (seq
      [ kw w,
        alt
          [ seq [sym "*", g (.expression inTernary)],
            seq [guard fun c => !c.onNewLine, g (.expression inTernary)],
            nothing ] ])
  | _ => postfixed g inTernary

/-- An operand of a binary operator. -/
def operand (g : Grammar) (inTernary : Bool) : Rule :=
  select fun c =>
    let op := c.operator
    if op == "!" || op == "~" || op == "+" || op == "-" then
      node .unary (seq [sym op, g (.operand inTernary)])
    else if op == "++" || op == "--" then
      node .update (seq [sym op, g (.operand inTernary)])
    else if c.startsWith "<" then
      alt
        [ typed (extended (arrowFunction g inTernary) (suffix g)),
          seq [guard fun c => c.dialect.hasMarkup, extended (markup g) (suffix g)],
          seq
            [ guard fun c => !c.dialect.hasMarkup,
              node .typeAssertion (seq [typeArguments g, g (.operand inTernary)]) ] ]
    else if atDestructuring c then
      alt
        [ node .assignment (seq [g .pattern, sym "=", g (.expression inTernary)]),
          postfixed g inTernary ]
    else wordOperand g inTernary c.word

/-! ## Chains -/

/-- What can follow an operand at a level: an operator of that level or above and its right operand,
and at the lowest level a type ascription on the same line. -/
def chainLink (g : Grammar) (inTernary : Bool) (level : Nat) (t : Tree) : Rule :=
  select fun c =>
    if level == 0 && c.dialect.hasTypes && !c.onNewLine && c.word == "as" then
      nodeAfter .asExpression t (seq
        [kw "as", alt [seq [kw "const", notAhead (sym ".")], g .type]])
    else if level == 0 && c.dialect.hasTypes && !c.onNewLine && c.word == "satisfies" then
      nodeAfter .satisfiesExpression t (seq [kw "satisfies", g .type])
    else
      let op := c.operator
      match binaryLevel op with
      | some l =>
        if level ≤ l then
          nodeAfter .binary t (seq [operatorToken op, g (.binary inTernary (rightLevel l))])
        else fail
      | none => fail

/-- A chain of operands joined by operators of at least the given level. -/
def binary (g : Grammar) (inTernary : Bool) (level : Nat) : Rule :=
  extended (g (.operand inTernary)) (chainLink g inTernary level)

/-- An expression without commas. -/
def expression (g : Grammar) (inTernary : Bool) : Rule := fun c =>
  match g (.binary inTernary 0) c with
  | some ([t], c') =>
    if c'.operator == "?" then
      alt
        [ nodeAfter .ternary t (seq
            [sym "?", g (.expression false), sym ":", g (.expression inTernary)]),
          typed (nodeAfter .ternary t (seq
            [sym "?", g (.expression true), sym ":", g (.expression inTernary)])) ] c'
    else some ([t], c')
  | _ => none

/-- Expressions joined by commas. A single one stands for itself. -/
def expressions (g : Grammar) : Rule := fun c =>
  match g (.expression false) c with
  | some ([t], c') =>
    if c'.startsWith "," then
      nodeAfter .sequence t (many (seq [sym ",", g (.expression false)])) c'
    else some ([t], c')
  | _ => none

end RouteAssets.Script
