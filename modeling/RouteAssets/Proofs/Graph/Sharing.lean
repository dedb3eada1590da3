import RouteAssets.Proofs.Graph.Reachability

/-!
# Routes with one full path

The modules that routes need are known by full path, and a route writes over what an earlier one
with its full path has written.

* **Full paths** (`joinPath_eq_parent_iff`): when a route is known under the full path of the route
  it is nested in.
* **One route** (`mem_routeModules_iff`): it needs its entry module and the recorded targets of what
  can be reached from there (`Needs`).
* **All routes** (`routeDependencies_keeps_iff`): the modules of a route are kept exactly if the last
  route with its full path needs them, too. So nothing is lost where full paths are distinct, and a
  layout is lost to a default child that does not lead back to it.
-/

namespace RouteAssets

open RouteAssets.Text

/-! ## Full paths -/

/-- A nested route has the full path of its parent in two cases: it repeats it, or it adds no path to
the root. -/
lemma Route.joinPath_eq_parent_iff (parent path : String) :
    joinPath parent path = parent ↔
      (startsWith path "/" = true ∧ path = parent) ∨ (parent = "/" ∧ path = "") := by
  have hempty : startsWith "" "/" = false := by decide
  unfold joinPath
  split
  · rename_i habsolute
    have hne : path ≠ "" := by
      rintro rfl
      exact absurd habsolute (by simp [hempty])
    simp [habsolute, hne]
  · rename_i hrelative
    simp only [hrelative, false_and, false_or, Bool.false_eq_true]
    split
    · rename_i hroot
      rw [Bool.or_eq_true, beq_iff_eq, beq_iff_eq] at hroot
      rcases hroot with rfl | rfl
      · simp
      · simp
    · rename_i hroot
      rw [Bool.or_eq_true, beq_iff_eq, beq_iff_eq, not_or] at hroot
      have hlonger : parent ++ "/" ++ path ≠ parent := by
        intro h
        have hlength := congrArg String.length h
        have hslash : "/".length = 1 := rfl
        rw [String.length_append, String.length_append, hslash] at hlength
        omega
      simp [hlonger, hroot.2]

namespace ModuleGraph

/-! ## One route -/

/-- A route needs a module: its entry module, or a recorded target of a module that can be reached
from there. A route without an entry module needs none. -/
def Needs (g : ModuleGraph) (static : StaticLookup) (r : Route) (m : ModuleId) : Prop :=
  ∃ entry, r.entryModule? = some entry ∧
    (m = entry ∨ ∃ x, g.Reaches static entry x ∧ g.Records x m)

/-- The modules of a route are kept: all that it needs is known for its full path. -/
def Keeps (g : ModuleGraph) (static : StaticLookup) (needed : Table String (List ModuleId))
    (r : Route) : Prop :=
  ∀ m, g.Needs static r m → ∃ ms, needed.get? r.fullPath = some ms ∧ m ∈ ms

variable {g : ModuleGraph} {static : Table ModuleId (List ModuleId)} {routes : List Route}

/-- The modules of one route are those that it needs. -/
lemma mem_routeModules_iff {r : Route} {m : ModuleId} :
    m ∈ (g.routeModules static r).1 ↔ g.Needs static.get? r m := by
  unfold routeModules Needs
  cases r.entryModule? with
  | none => simp
  | some entry =>
    have hexact := exact_of_ended (walk_ends g static entry)
    have htargets : m ∈ (g.walk static entry).targets ↔
        ∃ x, g.Reaches static.get? entry x ∧ g.Records x m := hexact.mem_targets_iff m
    simp only [mem_addNew, htargets, Option.some.injEq, exists_eq_left', or_comm]

/-! ## All routes -/

/-- The last route with a full path says what is known for it. -/
lemma get?_routeDependencies {path : String} {ms : List ModuleId} :
    (g.routeDependencies static routes).1.get? path = some ms ↔
      ∃ r, IsLast (fun r => r.fullPath = path) routes r ∧ (g.routeModules static r).1 = ms := by
  simp only [routeDependencies, List.map_map, Function.comp_def]
  exact Table.get?_ofList_map Route.fullPath _ routes path ms

/-- What is known for the full path of a route is what the last route with it needs. -/
lemma exists_get?_routeDependencies {r : Route} (hr : r ∈ routes) :
    ∃ last ms, IsLast (fun x => x.fullPath = r.fullPath) routes last ∧
      (g.routeDependencies static routes).1.get? r.fullPath = some ms ∧
      ∀ m, m ∈ ms ↔ g.Needs static.get? last m := by
  have hsome : ∃ x ∈ routes, x.fullPath = r.fullPath := ⟨r, hr, rfl⟩
  obtain ⟨last, hlast⟩ := exists_isLast hsome
  exact ⟨last, _, hlast, get?_routeDependencies.2 ⟨last, hlast, rfl⟩, fun _ => mem_routeModules_iff⟩

/-- A route keeps its modules exactly if the last route with its full path needs them. -/
lemma keeps_iff {r : Route} (hr : r ∈ routes) :
    g.Keeps static.get? (g.routeDependencies static routes).1 r ↔
      ∀ last, IsLast (fun x => x.fullPath = r.fullPath) routes last →
        ∀ m, g.Needs static.get? r m → g.Needs static.get? last m := by
  constructor
  · intro hkeeps last hlast m hm
    obtain ⟨ms, hms, hmem⟩ := hkeeps m hm
    have hknown : (g.routeDependencies static routes).1.get? r.fullPath =
        some (g.routeModules static last).1 := get?_routeDependencies.2 ⟨last, hlast, rfl⟩
    obtain rfl : (g.routeModules static last).1 = ms := Option.some.inj (hknown.symm.trans hms)
    exact mem_routeModules_iff.1 hmem
  · intro hlasts m hm
    obtain ⟨last, ms, hlast, hms, hmem⟩ := exists_get?_routeDependencies hr
    exact ⟨ms, hms, (hmem m).2 (hlasts last hlast m hm)⟩

/-- **A route keeps its modules exactly if the last route with its full path needs them.** For every
list of routes and every graph, each full path is known with the modules that the last route with it
needs, so that an earlier route keeps those modules only that the last one needs as well. Where no
full path occurs twice, every route keeps all its modules. A nested route has the full path of its
parent exactly if it repeats it or is a route without a path below the root. -/
theorem routeDependencies_keeps_iff (g : ModuleGraph) (static : Table ModuleId (List ModuleId))
    (routes : List Route) :
    (∀ r ∈ routes, ∃ last ms, IsLast (fun x => x.fullPath = r.fullPath) routes last ∧
      (g.routeDependencies static routes).1.get? r.fullPath = some ms ∧
      ∀ m, m ∈ ms ↔ g.Needs static.get? last m) ∧
    (∀ r ∈ routes, g.Keeps static.get? (g.routeDependencies static routes).1 r ↔
      ∀ last, IsLast (fun x => x.fullPath = r.fullPath) routes last →
        ∀ m, g.Needs static.get? r m → g.Needs static.get? last m) ∧
    ((routes.map Route.fullPath).Nodup →
      ∀ r ∈ routes, g.Keeps static.get? (g.routeDependencies static routes).1 r) ∧
    ∀ parent child : Route, child.fullPath = Route.joinPath parent.fullPath child.path →
      (child.fullPath = parent.fullPath ↔
        (startsWith child.path "/" = true ∧ child.path = parent.fullPath) ∨
          (parent.fullPath = "/" ∧ child.path = "")) := by
  refine ⟨fun r hr => exists_get?_routeDependencies hr, fun r hr => keeps_iff hr,
    fun hdistinct r hr => (keeps_iff hr).2 fun last hlast m hm => ?_, fun parent child hchild => ?_⟩
  · -- of routes with distinct full paths the last one with the path of `r` is `r`
    obtain rfl : last = r := List.inj_on_of_nodup_map hdistinct hlast.mem hr hlast.holds
    exact hm
  · rw [hchild]
    exact Route.joinPath_eq_parent_iff parent.fullPath child.path

/-- A layout at the root and its default child: both are known under the root path, and the modules
of the layout are lost. -/
theorem routeDependencies_drops_layout :
    let layout : Route := ⟨"/", "/", some "/app/Layout.vue", true, none⟩
    let child : Route := ⟨"", Route.joinPath "/" "", some "/app/Home.vue", true, none⟩
    let g : ModuleGraph :=
      ⟨Table.ofList [("/app/Layout.vue", ["/app/Menu.vue"])], Table.empty, Table.empty, "node_modules"⟩
    let needed := (g.routeDependencies Table.empty [layout, child]).1
    child.fullPath = layout.fullPath ∧ needed.get? "/" = some ["/app/Home.vue"] ∧
      g.Needs Table.empty.get? layout "/app/Layout.vue" ∧ ¬ g.Keeps Table.empty.get? needed layout := by
  intro layout child g needed
  obtain ⟨-, -, -, hjoin⟩ := routeDependencies_keeps_iff g Table.empty [layout, child]
  have hshared : child.fullPath = layout.fullPath := (hjoin layout child rfl).2 (Or.inr ⟨rfl, rfl⟩)
  have hknown : needed.get? "/" = some ["/app/Home.vue"] := by decide
  have hneeds : g.Needs Table.empty.get? layout "/app/Layout.vue" := ⟨_, rfl, Or.inl rfl⟩
  refine ⟨hshared, hknown, hneeds, fun hkeeps => ?_⟩
  obtain ⟨ms, hms, hmem⟩ := hkeeps _ hneeds
  obtain rfl : ["/app/Home.vue"] = ms := Option.some.inj (hknown.symm.trans hms)
  exact absurd hmem (by decide)

end ModuleGraph

end RouteAssets
