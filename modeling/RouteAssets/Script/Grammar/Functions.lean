import RouteAssets.Script.Grammar.Types
import RouteAssets.Script.Grammar.Patterns

/-!
# Functions and classes

A function is a signature with a block. In dialects with types a signature may stand alone, in a
declaration and in a class. Members of a class end with a semicolon, a line end or, with types, a
comma; whether a line end suffices depends on what the member ends with.
-/

namespace RouteAssets.Script

open Rule

/-! ## Functions -/

/-- The word `async` with its function on the same line. -/
def asyncHere : Rule := kwHere "async"

/-- A function expression, named or not. -/
def functionExpression (g : Grammar) : Rule :=
  node .functionExpression <| seq
    [opt asyncHere, kw "function", opt (sym "*"), opt binding, signature g, g .block]

/-- A function with a name and a body. -/
def functionDeclaration (g : Grammar) : Rule :=
  node .functionDeclaration <| seq
    [opt asyncHere, kw "function", opt (sym "*"), binding, signature g, g .block]

/-- A function with a name and no body. -/
def functionSignature (g : Grammar) : Rule :=
  node .functionSignature <| typed <| seq
    [opt asyncHere, kw "function", opt (sym "*"), binding, signature g, semicolon false]

/-! ## Members of objects and classes -/

/-- A method with its qualifiers, its name and its body. -/
def method (g : Grammar) (qualifiers : Rule) : Rule :=
  node .method <| seq
    [qualifiers, opt (sym "*"), memberName g, opt (typed (sym "?")), signature g, g .block]

/-- The qualifiers of a method in an object literal. -/
def objectMethodModifiers : Rule :=
  seq [opt (modifier ["async"]), opt (modifier ["get", "set"])]

/-- The qualifiers of a class member. -/
def classMemberModifiers : Rule :=
  select fun c =>
    if c.dialect.hasTypes then memberModifiers
    else seq [opt (modifier ["static"]), opt (modifier ["async"]), opt (modifier ["get", "set"])]

/-- The end of a class member without a body. -/
def memberEnd (afterExpression : Bool) : Rule :=
  alt [typed (sym ","), semicolon afterExpression]

/-- A field: with an initial value, with a type only, or bare. -/
def field (g : Grammar) : Rule :=
  node .field <| seq
    [ classMemberModifiers,
      memberName g,
      opt (typed (alt [sym "?", sym "!"])),
      opt (typed (typeAscription g)),
      alt
        [ seq [initializer g, memberEnd true],
          memberEnd false ] ]

/-- A member of a class body. -/
def classMember (g : Grammar) : Rule :=
  alt
    [ sym ";",
      node .staticBlock (seq [kw "static", guard fun c => c.startsWith "\x7b", g .block]),
      seq
        [ many (decorator g),
          alt
            [ seq [method g classMemberModifiers, opt (sym ";")],
              typed (node .method (seq
                [ classMemberModifiers, opt (sym "*"), memberName g, opt (sym "?"), signature g,
                  memberEnd false ])),
              typed (node .field (seq [classMemberModifiers, indexMember g, memberEnd false])),
              field g ] ] ]

/-- The body of a class. -/
def classBody (g : Grammar) : Rule :=
  node .classBody (seq [sym "\x7b", many (classMember g), sym "\x7d"])

/-! ## Classes -/

/-- What a class extends and, with types, what it implements. -/
def classHeritage (g : Grammar) : Rule :=
  node .classHeritage <| seq
    [ opt (seq
        [ kw "extends",
          alt
            [ typed (sepBy1 (seq [g (.operand false), opt (typeArguments g)]) (sym ",")),
              g (.binary false 0) ] ]),
      opt (typed (seq [kw "implements", sepBy1 (g .type) (sym ",")])) ]

/-- The name of a class. -/
def className : Rule :=
  select fun c =>
    wordThat .identifier fun w => isBinding c.dialect w && w != "extends" && w != "implements"

/-- A class without a name requirement. -/
def classExpression (g : Grammar) : Rule :=
  node .classExpression <| seq
    [ many (decorator g), kw "class", opt className, opt (typed (typeParameters g)),
      classHeritage g, classBody g ]

/-- A class with a name. -/
def classDeclaration (g : Grammar) : Rule :=
  node .classDeclaration <| seq
    [ many (decorator g), opt (typed (kwHere "abstract")), kw "class", className,
      opt (typed (typeParameters g)), classHeritage g, classBody g ]

end RouteAssets.Script
