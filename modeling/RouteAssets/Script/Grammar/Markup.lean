import RouteAssets.Script.Grammar.Types

/-!
# Markup elements

An element is a tag that closes itself, or an opening tag, children and a closing tag. Whether the
two tags agree is not looked at. Between tags the text is taken as it stands, up to the next tag,
expression or character reference.
-/

namespace RouteAssets.Script

open Rule

/-- The name of an element, possibly dotted or with a namespace. -/
def markupName : Rule :=
  let part : Rule := lexeme .identifier splitMarkupName
  alt
    [ node .member (seq [part, sym ":", part]),
      extended part fun t => nodeAfter .member t (seq [sym ".", anyWord .propertyName]) ]

/-- An expression in braces, possibly empty, possibly spread. -/
def markupExpression (g : Grammar) : Rule :=
  node .markupExpression <| seq
    [ sym "\x7b",
      opt (alt [node .spread (seq [sym "...", g (.expression false)]), g .expressions]),
      sym "\x7d" ]

/-- An attribute: a name with or without a value, or an expression in braces. -/
def markupAttribute (g : Grammar) : Rule :=
  alt
    [ markupExpression g,
      node .markupAttribute (seq
        [ alt
            [ seq [lexeme .propertyName splitMarkupName, sym ":", lexeme .propertyName splitMarkupName],
              lexeme .propertyName splitMarkupName ],
          opt (seq
            [ sym "=",
              alt [lexeme .string splitAttributeValue, markupExpression g, g .markup] ]) ]) ]

/-- A child of an element. -/
def markupChild (g : Grammar) : Rule :=
  alt
    [ raw (lexeme .markupText splitMarkupText),
      raw (lexeme .markupText splitCharacterReference),
      seq [guard fun c => !c.startsWith "</", g .markup],
      markupExpression g ]

/-- The children of an element and its closing tag. -/
def markupContent (g : Grammar) : Rule :=
  seq
    [ sym ">",
      many (markupChild g),
      node .markupTag (seq [sym "</", opt markupName, sym ">"]) ]

/-- An element or a fragment. -/
def markup (g : Grammar) : Rule :=
  node .markupElement <| seq
    [ sym "<",
      alt
        [ seq
            [ markupName,
              opt (typed (typeArguments g)),
              many (markupAttribute g),
              alt [sym "/>", markupContent g] ],
          markupContent g ] ]

end RouteAssets.Script
