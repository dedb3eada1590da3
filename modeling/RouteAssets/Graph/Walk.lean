import RouteAssets.Graph.Basic
import RouteAssets.Notice
import RouteAssets.Route.Basic

/-!
# Walking a module graph

A breadth-first walk from one module over all edges. A module may wait in the queue several times;
it is visited when it is taken out for the first time. A route needs the targets of the walk from
its entry module, and that module itself.
-/

namespace RouteAssets.ModuleGraph

/-! ## The walk -/

/-- How far a walk has come. -/
structure Walk where
  queue : List ModuleId
  visited : List ModuleId
  targets : List ModuleId
  deriving DecidableEq, Repr

/-- A walk that is about to start. -/
def Walk.start (entry : ModuleId) : Walk := { queue := [entry], visited := [], targets := [] }

/-- Visits a module that has not been visited, with `queue` waiting behind it. -/
def visit (g : ModuleGraph) (static : StaticLookup) (w : Walk) (m : ModuleId)
    (queue : List ModuleId) : Walk :=
  let visited := w.visited ++ [m]
  { queue := queue ++ (g.followed static m).filter (!visited.contains ·)
    visited
    targets := addAll w.targets (g.recorded m) }

/-- Takes one module out of the queue. -/
def step (g : ModuleGraph) (static : StaticLookup) (w : Walk) : Walk :=
  match w.queue with
  | [] => w
  | m :: queue => if w.visited.contains m then { w with queue } else g.visit static w m queue

/-- At most `n` steps of a walk. -/
def walkFor (g : ModuleGraph) (static : StaticLookup) : Nat → Walk → Walk
  | 0, w => w
  | n + 1, w => if w.queue.isEmpty then w else walkFor g static n (g.step static w)

/-- The number of items in the lists of a table. -/
def edgeCount {κ α : Type} (t : Table κ (List α)) : Nat := t.values.flatten.length

/-- The number of steps that suffice for every walk over the static imports of a table: one for the
entry module and one for each edge. -/
def stepBound (g : ModuleGraph) (static : Table ModuleId (List ModuleId)) : Nat :=
  1 + edgeCount g.dynamic + edgeCount static + edgeCount g.usages

/-- The walk from a module over the static imports of a table. -/
def walk (g : ModuleGraph) (static : Table ModuleId (List ModuleId)) (entry : ModuleId) : Walk :=
  g.walkFor static.get? (g.stepBound static) (Walk.start entry)

/-- What is to be said about a walk. -/
def walkNotice (entry : ModuleId) (w : Walk) : Notice :=
  .walked entry w.visited.length w.targets.length

/-! ## Routes -/

/-- The modules that a route needs, and what is to be said about them. -/
def routeModules (g : ModuleGraph) (static : Table ModuleId (List ModuleId)) (r : Route) :
    List ModuleId × Notice :=
  match r.entryModule? with
  | none => ([], .routeWithoutEntry r.fullPath)
  | some entry =>
    let w := g.walk static entry
    (addNew w.targets entry, walkNotice entry w)

/-- The modules that the routes need, by full path. Of two routes with one full path the later
counts. -/
def routeDependencies (g : ModuleGraph) (static : Table ModuleId (List ModuleId))
    (routes : List Route) : Table String (List ModuleId) × List Notice :=
  let needed := routes.map fun r => (r, g.routeModules static r)
  (Table.ofList (needed.map fun (r, modules, _) => (r.fullPath, modules)),
    needed.map fun (_, _, notice) => notice)

end RouteAssets.ModuleGraph
