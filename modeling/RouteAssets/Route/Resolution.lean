import RouteAssets.Imports.Static
import RouteAssets.Route.Definition

/-!
# Routes with their modules

The modules of the routes of one script. The static imports of the script are asked for first, one
request for each local name, then the dynamic imports of the route definitions, one for each route.
A route with a dynamic import gets the answer to its own request; a route that names a variable
gets the module bound to that name.
-/

namespace RouteAssets.Route

open RouteAssets.Script RouteAssets.Imports

/-- The modules that local names stand for. The last name that was resolved wins. -/
def importTable (bindings : List Binding) (answers : List Answer) : Table String ModuleId :=
  (bindings.zip answers).foldl
    (fun table (b, a) =>
      match a.module? with
      | some "" => table
      | some m => table.insert b.name m
      | none => table)
    Table.empty

/-- The specifiers of the dynamic imports among some definitions. -/
def dynamicRequests (ds : List Definition) : List String :=
  ds.filterMap fun d =>
    match d.component with
    | .dynamic s => some s
    | _ => none

/-- The routes of some definitions, given what the local names stand for and the answers to the
dynamic requests in order. -/
def resolveDefinitions (table : Table String ModuleId) : List Definition → List Answer → List Route
  | [], _ => []
  | d :: ds, answers =>
    let route (entry : Option ModuleId) (isDynamic : Bool) (component : Option String) : Route :=
      { path := d.path, fullPath := d.fullPath, entry, isDynamic, component }
    match d.component with
    | .dynamic _ =>
      match answers with
      | a :: rest => route a.module? true none :: resolveDefinitions table ds rest
      | [] => route none true none :: resolveDefinitions table ds []
    | .named name => route (table.get? name) false (some name) :: resolveDefinitions table ds answers
    | .other => route none false none :: resolveDefinitions table ds answers

/-- What is to be said about the answers to some requests. -/
def failures (importer : ModuleId) (specifiers : List String) (answers : List Answer) : List Notice :=
  (specifiers.zip answers).filterMap fun (s, a) =>
    match a with
    | .failed reason => some (.routeImportFailed s importer reason)
    | _ => none

/-- What is to be said about the routes of a script. -/
def routeNotices (importer : ModuleId) (routes : List Route) : List Notice :=
  (routes.filterMap fun r =>
    if r.entry.isNone then some (.routeUnresolved r.fullPath importer) else none) ++
  [.routesFound routes.length importer]

/-- The routes of a script with their modules, the modules its local names stand for, and notices. -/
structure Extraction where
  routes : List Route
  imports : Table String ModuleId
  notices : List Notice
  deriving DecidableEq, Repr

/-- A route definition that leads back to itself, with what is to be said about the requests that
were answered before it was met. -/
structure Endless where
  notices : List Notice
  deriving DecidableEq, Repr

/-- The routes that a script defines, with their modules, unless a definition never ends. All
requests are made on behalf of `importer`. -/
def extract {σ : Type} (resolve : Resolver σ) (source : Source) (importer : ModuleId) :
    StateM σ (Except Endless Extraction) := do
  let bound := (source.root?.map bindings).getD []
  let sources := bound.map Binding.source
  let answers ← askAll resolve importer sources
  let table := importTable bound answers
  let spoken := failures importer sources answers
  match definitions source with
  | none => return .error { notices := spoken }
  | some ds =>
    let requests := dynamicRequests ds
    let dynamicAnswers ← askAll resolve importer requests
    let routes := resolveDefinitions table ds dynamicAnswers
    return .ok
      { routes, imports := table,
        notices := spoken ++ failures importer requests dynamicAnswers ++
          routeNotices importer routes }

end RouteAssets.Route
