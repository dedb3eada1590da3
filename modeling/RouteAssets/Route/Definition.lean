import RouteAssets.Imports.Dynamic
import RouteAssets.Route.Basic

/-!
# Route definitions

Routes are defined by the arrays given to `createRouter`. An element of such an array, and the array
itself, may be a top-level constant. Every object with a `component` is a route; every object passes
its full path on to its `children`, which are defined in the same way. An object that is reached
again from its own children never ends, and then there is no list of routes.
-/

namespace RouteAssets.Route

open RouteAssets.Script

/-- What the `component` of a route is. -/
inductive Component where
  | named (identifier : String)
  | dynamic (specifier : String)
  | other
  deriving DecidableEq, Repr

/-- A route as it is written, before any module is resolved. -/
structure Definition where
  path : String
  fullPath : String
  component : Component
  deriving DecidableEq, Repr

/-- The component that a value denotes: a variable, or the first literal dynamic import in it. -/
def componentOf (value : Tree) : Component :=
  let value := value.unwrap
  match value.variableName? with
  | some name => .named name
  | none =>
    match Imports.firstDynamicSpecifier? value with
    | some "" => .other
    | some specifier => .dynamic specifier
    | none => .other

/-- A tree with its wrappers removed; a variable is replaced by its constant, if it has one. -/
def dereference? (constants : Table String Tree) (t : Tree) : Option Tree :=
  match t.unwrap.variableName? with
  | some name => (constants.get? name).map Tree.unwrap
  | none => some t.unwrap

/-- The objects among the elements of an array, either of which may be constants. -/
def objectsOf (constants : Table String Tree) (array : Tree) : List Tree :=
  match dereference? constants array with
  | none => []
  | some t =>
    (t.elements.filterMap (dereference? constants)).filter (Tree.isNode .object)

/-- The path that an object gives; one that is missing or not literal counts as empty. -/
def pathOf (object : Tree) : String :=
  ((object.properties.get? "path").bind Tree.stringValue?).getD ""

/-- The route that an object defines itself. -/
def ownDefinition (parent : String) (object : Tree) : List Definition :=
  match object.properties.get? "component" with
  | some value =>
    [{ path := pathOf object, fullPath := joinPath parent (pathOf object),
       component := componentOf value }]
  | none => []

/-- The routes of some objects, each before those of its children; `children` says what the routes
of a child array are. -/
def definitionsOf (children : Tree → String → Option (List Definition)) (parent : String) :
    List Tree → Option (List Definition)
  | [] => some []
  | object :: objects =>
    let nested :=
      match object.properties.get? "children" with
      | some array => children array (joinPath parent (pathOf object))
      | none => some []
    match nested, definitionsOf children parent objects with
    | some inner, some rest => some (ownDefinition parent object ++ inner ++ rest)
    | _, _ => none

/-- The routes of an array when at most `depth` arrays are opened inside one another. -/
def definitionsUpTo (constants : Table String Tree) :
    Nat → Tree → String → Option (List Definition)
  | 0, _, _ => none
  | depth + 1, array, parent =>
    definitionsOf (definitionsUpTo constants depth) parent (objectsOf constants array)

/-- The functions that create a router. -/
def creators : List String := ["createRouter"]

/-- The arrays of routes that are given to a router, in source order. -/
def routeArrays (root : Tree) : List Tree :=
  root.walk.filterMap fun t =>
    match t.calleeName?, t.callArguments with
    | some name, options :: _ =>
      if creators.contains name then
        (dereference? root.constants options).bind fun o => o.properties.get? "routes"
      else none
    | _, _ => none

/-- The routes of some arrays, or none when one of them never ends. Nested arrays that do not lead
back to themselves are fewer than the nodes of the tree. -/
def definitionsIn (root : Tree) : List Tree → Option (List Definition)
  | [] => some []
  | array :: arrays =>
    match definitionsUpTo root.constants (root.size + 1) array "", definitionsIn root arrays with
    | some ds, some rest => some (ds ++ rest)
    | _, _ => none

/-- The routes that a script defines, or none when a definition never ends. -/
def definitions (source : Source) : Option (List Definition) :=
  match source.root? with
  | none => some []
  | some root => definitionsIn root (routeArrays root)

end RouteAssets.Route
