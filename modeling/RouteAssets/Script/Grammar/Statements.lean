import RouteAssets.Script.Grammar.Declarations

/-!
# Statements

A statement is chosen by the word it starts with. A word that no statement claims starts a label or
an expression. An opening brace starts a block; only where the block does not hold together, and
its first words look like a property, it is read as an object in an expression.
-/

namespace RouteAssets.Script

open Rule

/-! ## Simple statements -/

/-- A comment that starts or ends like one of a page and runs to the end of its line. It is one only
in front of a statement. -/
def pageComment : Rule := fun c =>
  if c.startsWith "<!--" || c.startsWith "-->" then some ([], c.afterLineComment) else none

/-- Any number of statements. -/
def statements (g : Grammar) : Rule := many (alt [pageComment, g .statement])

/-- An expression as a statement. -/
def expressionStatement (g : Grammar) : Rule :=
  node .expressionStatement (seq [g .expressions, semicolon true])

/-- A label and the statement it names. -/
def labeledStatement (g : Grammar) : Rule :=
  seq
    [ guard fun c => c.word != "" && c.wordThen ":",
      node .labeledStatement (seq [binding, sym ":", g .statement]) ]

/-- A jump with an optional label on the same line. -/
def jump (k : NodeKind) (w : String) : Rule :=
  node k <| seq
    [ kw w,
      alt
        [ seq [guard fun c => !c.endsStatement false, anyWord .identifier, semicolon false],
          semicolon false ] ]

/-- A return, with a value unless the statement ends first. -/
def returnStatement (g : Grammar) : Rule :=
  node .returnStatement <| seq
    [ kw "return",
      alt
        [ seq [guard fun c => !c.endsStatement false, g .expressions, semicolon true],
          semicolon false ] ]

/-! ## Branches -/

/-- A conditional. -/
def ifStatement (g : Grammar) : Rule :=
  node .ifStatement <| seq
    [ kw "if", parenthesized g, g .statement,
      opt (node .elseClause (seq [kw "else", g .statement])) ]

/-- A choice among cases. -/
def switchStatement (g : Grammar) : Rule :=
  node .switchStatement <| seq
    [ kw "switch", parenthesized g,
      node .switchBody (seq
        [ sym "\x7b",
          many (node .switchCase (seq
            [ alt [seq [kw "case", g .expressions], kw "default"],
              sym ":",
              statements g ])),
          sym "\x7d" ]) ]

/-- A guarded block with its handlers. -/
def tryStatement (g : Grammar) : Rule :=
  node .tryStatement <| seq
    [ kw "try", g .block,
      opt (node .catchClause (seq
        [ kw "catch",
          opt (seq [sym "(", declaredPattern g, opt (typed (typeAscription g)), sym ")"]),
          g .block ])),
      opt (node .finallyClause (seq [kw "finally", g .block])) ]

/-! ## Loops -/

/-- The lowest level of operators that bind tighter than the word `in`, which ends the initial value
of a loop variable. -/
def operandLevel : Nat := 8

/-- What a loop over a collection assigns each element to. -/
def loopTarget (g : Grammar) : Rule :=
  alt
    [ seq [alt [kw "let", kw "const"], declaredPattern g, opt (typed (typeAscription g))],
      seq
        [ kw "var", declaredPattern g, opt (typed (typeAscription g)),
          opt (node .initializer (seq [sym "=", g (.binary false operandLevel)])) ],
      parenthesized g,
      g .pattern ]

/-- A loop over a collection. -/
def forInStatement (g : Grammar) : Rule :=
  node .forInStatement <| seq
    [ kw "for", opt (kw "await"), sym "(", loopTarget g, alt [kw "in", kw "of"], g .expressions,
      sym ")", g .statement ]

/-- A loop with a condition and a step. -/
def forStatement (g : Grammar) : Rule :=
  node .forStatement <| seq
    [ kw "for", sym "(",
      alt
        [ lexicalDeclaration g,
          variableDeclaration g,
          seq [g .expressions, sym ";"],
          node .emptyStatement (sym ";") ],
      alt [seq [g .expressions, sym ";"], node .emptyStatement (sym ";")],
      opt (g .expressions),
      sym ")", g .statement ]

/-- A loop with its condition last. -/
def doStatement (g : Grammar) : Rule :=
  node .doStatement (seq [kw "do", g .statement, kw "while", parenthesized g, opt (semicolon true)])

/-! ## Blocks and statements -/

/-- Statements in braces. -/
def block (g : Grammar) : Rule :=
  node .block (seq [sym "\x7b", statements g, sym "\x7d"])

/-- Do the first characters after the opening brace look like a property or a method? -/
def atObjectItem (c : Cursor) : Bool :=
  let inner := c.after ['\x7b'] (c.rest.drop 1)
  let startsNumber := inner.peek.any Char.isDigit
  let startsMethod := ["get", "set", "async"].contains inner.word &&
    (inner.afterWord.word != "" || inner.afterWord.startsWith "[" || inner.afterWord.startsWith "*")
  ["\x22", "\x27", "[", "...", "*"].any inner.startsWith || startsNumber || startsMethod ||
    (inner.word != "" && (inner.wordThen ":" || inner.wordThen "("))

/-- Does the word `let` stand alone at the end of a line? Then it is a variable. -/
def atBareLet (c : Cursor) : Bool :=
  let next := c.afterWord
  next.onNewLine && next.endsStatement true

/-- A statement. -/
def statement (g : Grammar) : Rule :=
  select fun c =>
    match c.word with
    | "" =>
      match c.peek with
      | some '{' => alt [g .block, seq [guard atObjectItem, expressionStatement g]]
      | some ';' => node .emptyStatement (sym ";")
      | some '@' => alt [classDeclaration g, exportStatement g, expressionStatement g]
      | _ => expressionStatement g
    | "if" => ifStatement g
    | "for" => alt [forInStatement g, forStatement g]
    | "while" => node .whileStatement (seq [kw "while", parenthesized g, g .statement])
    | "do" => doStatement g
    | "switch" => switchStatement g
    | "try" => tryStatement g
    | "with" => node .withStatement (seq [kw "with", parenthesized g, g .statement])
    | "break" => jump .breakStatement "break"
    | "continue" => jump .continueStatement "continue"
    | "return" => returnStatement g
    | "throw" => node .throwStatement (seq [kw "throw", g .expressions, semicolon true])
    | "debugger" => node .debuggerStatement (seq [kw "debugger", semicolon false])
    | "case" | "default" => fail
    | "var" | "const" => plainDeclaration g
    | "let" =>
      if atBareLet c then expressionStatement g
      else alt [lexicalDeclaration g, labeledStatement g, expressionStatement g]
    | "function" | "class" => alt [plainDeclaration g, expressionStatement g]
    | "import" =>
      if c.wordThen "(" || c.wordThen "." || c.wordThen "?." then expressionStatement g
      else alt [importStatement g, typed importAlias]
    | "export" => exportStatement g
    | "enum" | "interface" | "abstract" =>
      if c.dialect.hasTypes then plainDeclaration g
      else alt [labeledStatement g, expressionStatement g]
    | "using" =>
      if c.dialect.hasTypes then alt [labeledStatement g, expressionStatement g]
      else usingDeclaration g
    | "await" => alt [seq [guard fun c => !c.dialect.hasTypes, usingDeclaration g], expressionStatement g]
    | "async" | "type" | "namespace" | "module" =>
      alt [plainDeclaration g, labeledStatement g, expressionStatement g]
    | "declare" => alt [ambientDeclaration g, labeledStatement g, expressionStatement g]
    | _ => alt [labeledStatement g, expressionStatement g]

/-- A whole script. -/
def program (g : Grammar) : Rule :=
  node .program <| seq
    [ opt (node .hashBangLine (lexeme .punctuation splitHashBang)),
      statements g,
      atEnd ]

end RouteAssets.Script
