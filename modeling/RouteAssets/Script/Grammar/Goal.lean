import RouteAssets.Script.Lexeme

/-!
# Goals and names

The grammar of scripts is recursive through a small set of goals. Every rule is an ordinary
definition that takes the reader of goals as an argument; the knot is tied once, by recursion on a
depth bound, in `RouteAssets.Script.Parser`. So each rule can be read, and reasoned about, on its
own.

Which words can be names depends on the dialect. Plain scripts have reserved words. Scripts with
types reserve nothing: there a word is a keyword only where that keyword could stand.
-/

namespace RouteAssets.Script

/-- What a rule can ask to be read. The flag of an expression says that it stands between the
question mark and the colon of a ternary, where an arrow function has no return type. -/
inductive Goal where
  | statement
  | block
  | expressions
  | expression (inTernary : Bool)
  | binary (inTernary : Bool) (level : Nat)
  | operand (inTernary : Bool)
  | pattern
  | type
  | markup
  deriving DecidableEq, Repr

/-- A reader of goals. -/
abbrev Grammar := Goal → Rule

/-! ## Words that are no names -/

/-- The reserved words of plain scripts. -/
def reservedWords : List String :=
  [ "break", "case", "catch", "class", "const", "continue", "debugger", "default", "delete", "do",
    "else", "export", "extends", "false", "finally", "for", "function", "if", "import", "in",
    "instanceof", "new", "null", "return", "super", "switch", "this", "throw", "true", "try",
    "typeof", "var", "void", "while", "with" ]

/-- The keywords that can begin an operand. -/
def operandWords : List String :=
  [ "await", "class", "delete", "false", "function", "import", "new", "null", "super", "this",
    "true", "typeof", "undefined", "void", "yield" ]

/-- Can the word stand for a variable inside an expression? -/
def isReference (d : Dialect) (w : String) : Bool :=
  !operandWords.contains w && (d.hasTypes || !reservedWords.contains w)

/-- Can the word be the name that a declaration introduces? -/
def isBinding (d : Dialect) (w : String) : Bool := d.hasTypes || !reservedWords.contains w

namespace Rule

/-- A variable inside an expression. -/
def reference : Rule := select fun c => wordThat .identifier (isReference c.dialect)

/-- A name that a declaration introduces. -/
def binding : Rule := select fun c => wordThat .identifier (isBinding c.dialect)

/-- Applies the rule in dialects with types only. -/
def typed (r : Rule) : Rule := seq [guard fun c => c.dialect.hasTypes, r]

/-- A private name. -/
def privateName : Rule := lexeme .privateName fun
  | '#' :: cs =>
    match Cursor.splitWord cs with
    | ([], _) => none
    | (w, rest) => some ('#' :: w, rest)
  | _ => none

end Rule

namespace Cursor

/-- Is the word that stands here followed, after a gap, by the given text? -/
def wordThen (c : Cursor) (s : String) : Bool := c.afterWord.startsWith s

/-- Can a property name, or the star of a generator, stand here on the same line? -/
def atMemberName (c : Cursor) : Bool :=
  !c.onNewLine && c.peek.any fun ch =>
    isWordStart ch || ch.isDigit || ['[', '#', '\x22', '\x27', '*'].contains ch

/-- Does the bracket group that starts here end in front of the given text? -/
def groupThen (c : Cursor) (s : String) : Bool :=
  c.afterGroup?.any fun cs => s.toList.isPrefixOf cs

end Cursor

open Rule

/-! ## Small shared constructs -/

/-- An initial value. -/
def initializer (g : Grammar) : Rule := node .initializer (seq [sym "=", g (.expression false)])

/-- The arguments of a call. Items may be missing between commas. -/
def arguments (g : Grammar) : Rule :=
  node .arguments <| seq
    [ sym "(",
      commaSeparated (alt
        [ node .spread (seq [sym "...", g (.expression false)]),
          g (.expression false) ]),
      sym ")" ]

/-- An expression in parentheses. -/
def parenthesized (g : Grammar) : Rule :=
  node .parenthesized (seq [sym "(", g .expressions, sym ")"])

/-- A name in brackets that is computed. -/
def computedName (g : Grammar) : Rule :=
  node .computedName (seq [sym "[", g (.expression false), sym "]"])

/-- The name of a property or of a class member. Every word is one. -/
def memberName (g : Grammar) : Rule :=
  alt [anyWord .propertyName, privateName, string, number, computedName g]

/-- A word that qualifies a member, when a member name follows it on the same line. -/
def modifier (words : List String) : Rule :=
  seq [wordThat .keyword words.contains, guard Cursor.atMemberName]

/-- A decorator: a dotted name, perhaps called, or an expression in parentheses. -/
def decorator (g : Grammar) : Rule :=
  node .decorator <| seq
    [ sym "@",
      alt
        [ parenthesized g,
          extended reference fun t => alt
            [ nodeAfter .member t (seq [sym ".", anyWord .propertyName]),
              nodeAfter .call t (arguments g) ] ] ]

end RouteAssets.Script
