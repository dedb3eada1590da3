import RouteAssets.Module.Id
import RouteAssets.Script.Query

/-!
# Static imports

The import and export statements at the top level of a script, in two views: the modules a script
depends on at run time, and the local names it binds to the values of other modules. Type-only
statements and specifiers take part in neither, since they leave no trace in emitted code.
-/

namespace RouteAssets.Imports

open RouteAssets.Script

/-- The module that a top-level statement depends on. -/
def staticSource? (statement : Tree) : Option String :=
  if (statement.isNode .importStatement || statement.isNode .exportStatement) &&
      !statement.isTypeOnly then
    match statement.source? with
    | some "" => none
    | source => source
  else none

/-- The specifiers of the modules a script depends on statically, at first occurrence. -/
def staticSpecifiers (root : Tree) : List String :=
  distinct (root.children.filterMap staticSource?)

/-- A local name and the specifier of the module whose value it stands for. -/
structure Binding where
  name : String
  source : String
  deriving DecidableEq, Repr

/-- The local name of an import specifier: its alias if it has one. -/
def localName? (specifier : Tree) : Option String :=
  if specifier.isNode .importSpecifier && !specifier.isTypeOnly then
    (specifier.namedChildren.getLast?).map Tree.text
  else none

/-- The local names that a part of an import clause binds to single values. -/
def partNames : Tree → List String
  | .node .namedImports ts => ts.filterMap localName?
  | .leaf t => if t.kind == .identifier then [t.text] else []
  | _ => []

/-- The bindings of one top-level statement. -/
def statementBindings (statement : Tree) : List Binding :=
  if statement.isNode .importStatement then
    match staticSource? statement, statement.child? .importClause with
    | some source, some clause => (clause.children.flatMap partNames).map fun name => { name, source }
    | _, _ => []
  else []

/-- The names that a script binds by default and by named imports, in order. -/
def bindings (root : Tree) : List Binding := root.children.flatMap statementBindings

end RouteAssets.Imports
