import RouteAssets.Script.Grammar.Goal

/-!
# Binding and assignment patterns

The same patterns serve declarations, parameters and assignments, so a pattern may also be a member
of an object.
-/

namespace RouteAssets.Script

open Rule

/-- A rest element. -/
def restPattern (g : Grammar) : Rule := node .restPattern (seq [sym "...", g .pattern])

/-- A pattern with a default. -/
def defaultedPattern (g : Grammar) : Rule :=
  alt
    [ node .assignmentPattern (seq [g .pattern, initializer g]),
      g .pattern ]

/-- An array pattern. Elements may be missing. -/
def arrayPattern (g : Grammar) : Rule :=
  node .arrayPattern (seq [sym "[", commaSeparated (defaultedPattern g), sym "]"])

/-- An object pattern. -/
def objectPattern (g : Grammar) : Rule :=
  node .objectPattern <| seq
    [ sym "\x7b",
      commaSeparated (alt
        [ restPattern g,
          node .pairPattern (seq [memberName g, sym ":", defaultedPattern g]),
          node .assignmentPattern (seq [binding, initializer g]),
          binding ]),
      sym "\x7d" ]

/-- A variable or a member of an object. -/
def assignmentTarget (g : Grammar) : Rule :=
  extended (alt [reference, wordAs .receiver "this", wordAs .receiver "super"]) fun t => alt
    [ nodeAfter .member t (seq [sym ".", alt [anyWord .propertyName, privateName]]),
      nodeAfter .subscript t (seq [sym "[", g .expressions, sym "]"]) ]

/-- A pattern. -/
def pattern (g : Grammar) : Rule :=
  select fun c =>
    match c.peek with
    | some '{' => objectPattern g
    | some '[' => arrayPattern g
    | some '.' => restPattern g
    | _ => assignmentTarget g

/-- What a variable declaration can introduce. -/
def declaredPattern (g : Grammar) : Rule :=
  select fun c =>
    match c.peek with
    | some '{' => objectPattern g
    | some '[' => arrayPattern g
    | _ => binding

end RouteAssets.Script
