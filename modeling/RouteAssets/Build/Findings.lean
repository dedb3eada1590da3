import RouteAssets.Graph.Basic
import RouteAssets.Route.Basic
import RouteAssets.Text.Order
import RouteAssets.Usage.Listing

/-!
# What a build has found

The routes of an application, what its router files import and its dependencies stand for, and the
edges that its modules contribute. Edges are added by union: a module that is read twice keeps
whatever either reading found. The routes and the dependencies are replaced as a whole.

Findings are open while modules are read. Once closed they refuse to take anything in until they are
opened again or cleared.
-/

namespace RouteAssets

open RouteAssets.Text

/-- The findings of a build. -/
structure Findings where
  routes : List Route
  routerImports : Table String ModuleId
  lazyModules : Table DepId ModuleId
  dynamic : Table ModuleId (List ModuleId)
  static : Table ModuleId (List ModuleId)
  usages : Usage.ByModule
  isClosed : Bool
  deriving DecidableEq, Repr

namespace Findings

/-- Nothing has been found. -/
def empty : Findings :=
  { routes := [], routerImports := Table.empty, lazyModules := Table.empty, dynamic := Table.empty,
    static := Table.empty, usages := Table.empty, isClosed := false }

/-- Findings that are closed refuse a change. -/
structure Closed where
  deriving DecidableEq, Repr

/-- The text of a refusal. -/
def Closed.message (_ : Closed) : String :=
  "BuildContext is finalized; call reset() before collecting again."

/-! ## Opening and closing -/

/-- The findings, closed. -/
def close (f : Findings) : Findings := { f with isClosed := true }

/-- The findings, open for more. -/
def reopen (f : Findings) : Findings := { f with isClosed := false }

/-- A change, refused when the findings are closed. -/
def change (f : Findings) (g : Findings → Findings) : Except Closed Findings :=
  if f.isClosed then .error {} else .ok (g f)

/-! ## Taking in -/

/-- Adds targets to those of a module. -/
def addTargets (table : Table ModuleId (List ModuleId)) (m : ModuleId) (targets : List ModuleId) :
    Table ModuleId (List ModuleId) :=
  table.insert m (addAll (table.getD m []) targets)

/-- Replaces the routes and what the router files import. -/
def setRoutes (f : Findings) (routes : List Route) (imports : Table String ModuleId) :
    Except Closed Findings :=
  f.change fun f => { f with routes, routerImports := imports }

/-- Replaces what dependencies stand for. -/
def setLazyModules (f : Findings) (modules : Table DepId ModuleId) : Except Closed Findings :=
  f.change fun f => { f with lazyModules := modules }

/-- Adds dynamic imports of a module. -/
def addDynamic (f : Findings) (m : ModuleId) (targets : List ModuleId) : Except Closed Findings :=
  f.change fun f => { f with dynamic := addTargets f.dynamic m targets }

/-- Adds static imports of a module. -/
def addStatic (f : Findings) (m : ModuleId) (targets : List ModuleId) : Except Closed Findings :=
  f.change fun f => { f with static := addTargets f.static m targets }

/-- Adds dependencies that a module requests. -/
def addUsages (f : Findings) (m : ModuleId) (deps : List DepId) : Except Closed Findings :=
  f.change fun f => { f with usages := Usage.addTo f.usages m deps }

/-! ## Asking -/

/-- The static imports of a module in order, if the module has been read. -/
def staticImports? (f : Findings) (m : ModuleId) : Option (List ModuleId) :=
  (f.static.get? m).map sortedStrings

/-- The graph of what has been found, given the namespace whose modules are not followed. -/
def graph (f : Findings) (excluded : String) : ModuleGraph :=
  { dynamic := f.dynamic, usages := f.usages, lazyModules := f.lazyModules, excluded }

end Findings

end RouteAssets
