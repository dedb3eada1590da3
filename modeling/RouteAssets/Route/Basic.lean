import RouteAssets.Module.Id
import RouteAssets.Text.Search

/-!
# Routes

A route has the path written for it, the full path under which it is known, and the module of its
component once that is resolved. Full paths are joined from the outside in; a path that starts with
a slash forgets all that is outside it.
-/

namespace RouteAssets

open RouteAssets.Text

/-- A route of the application. -/
structure Route where
  path : String
  fullPath : String
  entry : Option ModuleId
  isDynamic : Bool
  component : Option String
  deriving DecidableEq, Repr

namespace Route

/-- The full path of a route below a parent. -/
def joinPath (parent path : String) : String :=
  if startsWith path "/" then path
  else if parent == "" || parent == "/" then "/" ++ path
  else parent ++ "/" ++ path

/-- The module to load for the route, if it has one with a name. -/
def entryModule? (r : Route) : Option ModuleId :=
  match r.entry with
  | some "" => none
  | entry => entry

end Route

end RouteAssets
