import RouteAssets.Table
import RouteAssets.Text.Search
import RouteAssets.Usage

/-!
# Module graphs

Three kinds of edges lead from a module to others: its dynamic imports, its static imports outside
the excluded namespace, and the lazily loaded modules behind the dependencies it requests. The first
and the third kind are recorded as targets; all three are followed. Static imports are not part of
the graph: they are asked for, module by module, while it is walked.
-/

namespace RouteAssets

open RouteAssets.Text

/-- What is known about the modules of an application. A module without an entry in one of the
tables has no edges of that kind. -/
structure ModuleGraph where
  dynamic : Table ModuleId (List ModuleId)
  usages : Table ModuleId (List DepId)
  lazyModules : Table DepId ModuleId
  excluded : String
  deriving DecidableEq, Repr

/-- Answers which modules a module imports statically, or that nothing is known about it. -/
abbrev StaticLookup := ModuleId → Option (List ModuleId)

namespace ModuleGraph

/-- Does a module lie in a namespace? The empty namespace holds none. -/
def isExcluded (excluded : String) (m : ModuleId) : Bool := excluded != "" && contains m excluded

/-- The modules that a module imports dynamically. -/
def dynamicTargets (g : ModuleGraph) (m : ModuleId) : List ModuleId := g.dynamic.getD m []

/-- The modules that a module imports statically, outside the excluded namespace. -/
def staticTargets (g : ModuleGraph) (static : StaticLookup) (m : ModuleId) : List ModuleId :=
  ((static m).getD []).filter (!isExcluded g.excluded ·)

/-- The module that is loaded when a dependency is requested. -/
def lazyModule? (g : ModuleGraph) (d : DepId) : Option ModuleId :=
  match g.lazyModules.get? d with
  | some "" => none
  | found => found

/-- The modules that are loaded for the dependencies a module requests. -/
def usageTargets (g : ModuleGraph) (m : ModuleId) : List ModuleId :=
  (g.usages.getD m []).filterMap g.lazyModule?

/-- The targets that a module contributes. -/
def recorded (g : ModuleGraph) (m : ModuleId) : List ModuleId := g.dynamicTargets m ++ g.usageTargets m

/-- The modules that are walked to from a module. -/
def followed (g : ModuleGraph) (static : StaticLookup) (m : ModuleId) : List ModuleId :=
  g.dynamicTargets m ++ g.staticTargets static m ++ g.usageTargets m

end ModuleGraph

end RouteAssets
