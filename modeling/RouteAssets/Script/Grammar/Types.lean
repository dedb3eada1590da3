import RouteAssets.Script.Grammar.Goal

/-!
# Types, parameters and signatures

Types are read for their extent, and because they can hold calls: an `import(...)` inside a type is
a call like any other. All other structure of a type is kept as plain nodes.
-/

namespace RouteAssets.Script

open Rule

/-! ## Annotations and arguments -/

/-- A type after a colon. -/
def typeAscription (g : Grammar) : Rule := node .typeAscription (seq [sym ":", g .type])

/-- The return type after a colon, which may be a predicate on a parameter or an assertion. -/
def returnAscription (g : Grammar) : Rule :=
  node .typeAscription <| seq
    [ sym ":",
      alt
        [ node .typeExpression (seq
            [kw "asserts", anyWord .identifier, opt (seq [kw "is", g .type])]),
          node .typeExpression (seq [anyWord .identifier, kwHere "is", g .type]),
          g .type ] ]

/-- Type arguments. -/
def typeArguments (g : Grammar) : Rule :=
  node .typeArguments (seq [sym "<", commaTerminated (g .type), sym ">"])

/-- A type parameter with its constraint and its default. -/
def typeParameter (g : Grammar) : Rule :=
  node .typeParameter <| seq
    [ opt (seq [kw "const", guard fun c => c.peek.any Cursor.isWordStart]),
      anyWord .typeName,
      opt (seq [kw "extends", g .type]),
      opt (seq [sym "=", g .type]) ]

/-- Type parameters. -/
def typeParameters (g : Grammar) : Rule :=
  node .typeParameters (seq [sym "<", commaTerminated (typeParameter g), sym ">"])

/-! ## Parameters -/

/-- One parameter. With types it may carry decorators, qualifiers, a question mark and a type, and
it may be the receiver. -/
def parameter (g : Grammar) : Rule :=
  alt
    [ typed (node .parameter (seq
        [ many (decorator g),
          many (seq
            [ wordThat .keyword ["public", "private", "protected", "override", "readonly"].contains,
              guard fun c => c.peek.any fun ch => Cursor.isWordStart ch || ch == '{' || ch == '[' ]),
          alt [wordAs .receiver "this", g .pattern],
          opt (sym "?"),
          opt (typeAscription g),
          opt (initializer g) ])),
      seq [guard fun c => !c.dialect.hasTypes, node .parameter (seq [g .pattern, opt (initializer g)])] ]

/-- A parameter list. -/
def parameters (g : Grammar) : Rule :=
  node .parameters (seq [sym "(", opt (commaTerminated (parameter g)), sym ")"])

/-- Parameters with what surrounds them in dialects with types. -/
def signature (g : Grammar) : Rule :=
  seq
    [ opt (typed (typeParameters g)),
      parameters g,
      opt (typed (returnAscription g)) ]

/-! ## Object types -/

/-- An index signature or a mapped member. -/
def indexMember (g : Grammar) : Rule :=
  seq
    [ opt (seq [opt (alt [sym "-", sym "+"]), kw "readonly"]),
      sym "[",
      alt
        [ seq [anyWord .identifier, sym ":", g .type],
          seq [anyWord .typeName, kw "in", g .type, opt (seq [kw "as", g .type])] ],
      sym "]",
      opt (seq
        [ alt [sym "-?", sym "+?", sym "?", nothing],
          typeAscription g ]) ]

/-- The qualifiers of a member of an object type or a class. -/
def memberModifiers : Rule :=
  many (modifier
    [ "public", "private", "protected", "static", "override", "readonly", "abstract", "declare",
      "accessor", "async", "get", "set" ])

/-- A member of an object type. -/
def typeMember (g : Grammar) : Rule :=
  node .typeMember <| alt
    [ indexMember g,
      seq
        [ opt (modifier ["abstract"]),
          kw "new",
          guard fun c => c.startsWith "(" || c.startsWith "<",
          signature g ],
      seq [guard fun c => c.startsWith "(" || c.startsWith "<", signature g],
      seq [memberModifiers, opt (sym "*"), memberName g, opt (sym "?"), signature g],
      seq [memberModifiers, memberName g, opt (sym "?"), opt (typeAscription g)] ]

/-- An object type. Members are separated by commas, semicolons or line ends. -/
def objectType (g : Grammar) : Rule :=
  node .objectType <| seq
    [ alt [sym "\x7b|", sym "\x7b"],
      opt (alt [sym ",", sym ";"]),
      many (seq [typeMember g, alt [sym ",", semicolon false, ahead (sym "|"), ahead (sym "\x7d")]]),
      alt [sym "|\x7d", sym "\x7d"] ]

/-! ## Types -/

/-- A member of a tuple type. -/
def tupleMember (g : Grammar) : Rule :=
  seq
    [ opt (sym "..."),
      alt
        [ seq [anyWord .identifier, opt (sym "?"), sym ":", g .type],
          seq [g .type, opt (sym "?")] ] ]

/-- An `import(...)` in a type. -/
def importCall (g : Grammar) : Rule :=
  node .call (seq [wordAs .importWord "import", arguments g])

/-- What can follow the head of a dotted type or of a queried value. -/
def dottedSuffix (t : Tree) : Rule :=
  nodeAfter .member t (seq [sym ".", alt [anyWord .propertyName, privateName]])

/-- The type of a value. -/
def typeQuery (g : Grammar) : Rule :=
  node .typeExpression <| seq
    [ kw "typeof",
      extended (alt [importCall g, anyWord .identifier]) (fun t => alt
        [ dottedSuffix t,
          seq
            [ guard fun c => !c.onNewLine,
              alt
                [ nodeAfter .subscript t (seq [sym "[", alt [string, number, g .expressions], sym "]"]),
                  nodeAfter .call t (arguments g) ] ] ]),
      opt (typeArguments g) ]

/-- A type that starts with a word. -/
def wordType (g : Grammar) : Rule :=
  select fun c =>
    match c.word with
    | "typeof" => typeQuery g
    | "keyof" => node .typeExpression (seq [kw "keyof", g .type])
    | "readonly" => node .typeExpression (seq [kw "readonly", g .type])
    | "unique" => node .typeExpression (seq [kw "unique", kw "symbol"])
    | "infer" => node .typeExpression (seq
        [ kw "infer",
          anyWord .typeName,
          opt (seq [kw "extends", g .type]) ])
    | "import" => node .typeExpression (seq
        [extended (importCall g) dottedSuffix, opt (typeArguments g)])
    | "this" => wordAs .receiver "this"
    | _ => node .typeExpression (seq
        [extended (anyWord .typeName) dottedSuffix, opt (typeArguments g)])

/-- A type without operators around it. -/
def primaryType (g : Grammar) : Rule :=
  alt
    [ node .typeExpression (seq [sym "(", g .type, sym ")"]),
      objectType g,
      node .typeExpression (seq [sym "[", commaSeparated (tupleMember g), sym "]"]),
      template (g .type),
      string,
      number,
      node .typeExpression (seq [sym "-", number]),
      node .typeExpression (seq [sym "?", g .type]),
      sym "*",
      wordType g ]

/-- A type with array brackets and indices after it, all on the line where the type ends. -/
def suffixedType (g : Grammar) : Rule :=
  extended (primaryType g) fun t =>
    nodeAfter .typeExpression t (seq
      [guard fun c => !c.onNewLine, sym "[", opt (g .type), sym "]"])

/-- Types joined by `&`. -/
def intersectionType (g : Grammar) : Rule :=
  seq [opt (sym "&"), suffixedType g, many (seq [sym "&", suffixedType g])]

/-- Types joined by `|`. -/
def unionType (g : Grammar) : Rule :=
  seq [opt (sym "|"), intersectionType g, many (seq [sym "|", intersectionType g])]

/-- A function type or a constructor type. -/
def functionType (g : Grammar) : Rule :=
  seq
    [ opt (seq [opt (kw "abstract"), kw "new"]),
      opt (typeParameters g),
      parameters g,
      sym "=>",
      alt
        [ node .typeExpression (seq
            [kw "asserts", anyWord .identifier, opt (seq [kw "is", g .type])]),
          node .typeExpression (seq [anyWord .identifier, kwHere "is", g .type]),
          g .type ] ]

/-- Does a function type start here? -/
def atFunctionType (c : Cursor) : Bool :=
  c.startsWith "<" || (c.startsWith "(" && c.groupThen "=>") ||
    (c.word == "new" && (c.wordThen "(" || c.wordThen "<")) ||
    (c.word == "abstract" && c.afterWord.word == "new")

/-- A type. -/
def type (g : Grammar) : Rule :=
  node .typeExpression <| select fun c =>
    if atFunctionType c then functionType g
    else seq
      [ unionType g,
        opt (seq [kwHere "extends", unionType g, sym "?", g .type, sym ":", g .type]) ]

end RouteAssets.Script
