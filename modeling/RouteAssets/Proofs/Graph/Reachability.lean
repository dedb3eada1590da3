import RouteAssets.Graph.Walk
import RouteAssets.Proofs.Table
import RouteAssets.Proofs.Text.Occurrence
import Mathlib.Algebra.BigOperators.Group.List.Lemmas
import Mathlib.Algebra.Order.BigOperators.Group.Finset
import Mathlib.Data.Set.Finite.List
import Mathlib.Logic.Relation

/-!
# A walk visits what is reachable

An edge of a module graph is **recorded** (`Records`: a dynamic import, or the lazily loaded module
of a requested dependency) or merely static; both kinds are followed (`Leads`). The modules that can
be reached from an entry module are the reflexive and transitive closure of `Leads`.

* **One step** (`Explored.step`): the invariant `Explored` ties the three lists of a walk to the
  modules that can be reached; every step keeps it, so every run keeps it (`Explored.walkFor`).
* **Ending** (`pending_step_lt`, `walkFor_ends`): each step lowers the number of waiting modules plus
  the number of edges that have not been followed, so that a bound on the edges bounds the run. The
  bound of `walk` is one (`walk_ends`), and a run over an arbitrary look-up of static imports ends
  exactly when finitely many modules can be reached (`exists_walkFor_ends_iff`).
* **Exactness** (`walk_exact`): a walk that has ended has visited the modules that can be reached and
  has recorded the recorded targets of these, in whatever order and however often edges are listed.
-/

namespace RouteAssets.ModuleGraph

open RouteAssets.Text

/-! ## Edges -/

/-- A recorded edge: a dynamic import, or the module, with a name, that a requested dependency
stands for. -/
inductive Records (g : ModuleGraph) (m t : ModuleId) : Prop
  | dynamic {ts : List ModuleId} (hm : g.dynamic.get? m = some ts) (ht : t ∈ ts)
  | usage {ds : List DepId} {d : DepId} (hm : g.usages.get? m = some ds) (hd : d ∈ ds)
      (ht : g.lazyModules.get? d = some t) (hne : t ≠ "")

/-- An edge that is followed: a recorded one, or a static import of a module whose name does not
hold the excluded namespace. The empty namespace excludes nothing. -/
inductive Leads (g : ModuleGraph) (static : StaticLookup) (m t : ModuleId) : Prop
  | recorded (h : g.Records m t)
  | static {ts : List ModuleId} (hm : static m = some ts) (ht : t ∈ ts)
      (hx : g.excluded = "" ∨ ¬ g.excluded.toList <:+: t.toList)

/-- A module can be reached from another over edges that are followed. -/
abbrev Reaches (g : ModuleGraph) (static : StaticLookup) : ModuleId → ModuleId → Prop :=
  Relation.ReflTransGen (g.Leads static)

section Edges

variable {g : ModuleGraph} {static : StaticLookup} {m t : ModuleId}

/-- The module behind a dependency has a name. -/
lemma lazyModule?_eq_some_iff {d : DepId} :
    g.lazyModule? d = some t ↔ g.lazyModules.get? d = some t ∧ t ≠ "" := by
  unfold lazyModule?
  split
  · rename_i h
    simp only [h, reduceCtorEq, Option.some.injEq, false_iff, not_and, not_not]
    exact fun h => h.symm
  · rename_i h
    constructor
    · intro ht
      refine ⟨ht, ?_⟩
      rintro rfl
      exact h ht
    · exact fun ht => ht.1

/-- A module lies in a namespace with a name exactly when its own name holds that name. -/
lemma isExcluded_eq_false_iff {excluded : String} :
    isExcluded excluded t = false ↔ excluded = "" ∨ ¬ excluded.toList <:+: t.toList := by
  rw [← contains_iff_infix, isExcluded, Bool.and_eq_false_iff, bne_eq_false_iff_eq,
    Bool.not_eq_true]

/-- The recorded targets are the recorded edges. -/
lemma mem_recorded_iff : t ∈ g.recorded m ↔ g.Records m t := by
  rw [recorded, dynamicTargets, usageTargets, List.mem_append, Table.mem_getD_nil_iff,
    List.mem_filterMap]
  simp only [Table.mem_getD_nil_iff, lazyModule?_eq_some_iff]
  constructor
  · rintro (⟨ts, hm, ht⟩ | ⟨d, ⟨ds, hm, hd⟩, ht, hne⟩)
    · exact .dynamic hm ht
    · exact .usage hm hd ht hne
  · rintro (⟨hm, ht⟩ | ⟨hm, hd, ht, hne⟩)
    · exact Or.inl ⟨_, hm, ht⟩
    · exact Or.inr ⟨_, ⟨_, hm, hd⟩, ht, hne⟩

/-- The static targets are the static imports outside the excluded namespace. -/
lemma mem_staticTargets_iff :
    t ∈ g.staticTargets static m ↔
      ∃ ts, static m = some ts ∧ t ∈ ts ∧ (g.excluded = "" ∨ ¬ g.excluded.toList <:+: t.toList) := by
  rw [staticTargets, List.mem_filter, Bool.not_eq_true', isExcluded_eq_false_iff]
  cases static m <;> simp

/-- The modules that are followed are those that an edge leads to. -/
lemma mem_followed_iff : t ∈ g.followed static m ↔ g.Leads static m t := by
  have hsplit : t ∈ g.followed static m ↔ t ∈ g.recorded m ∨ t ∈ g.staticTargets static m := by
    simp only [followed, recorded, List.mem_append]
    tauto
  rw [hsplit, mem_recorded_iff, mem_staticTargets_iff]
  constructor
  · rintro (h | ⟨ts, hm, ht, hx⟩)
    · exact .recorded h
    · exact .static hm ht hx
  · rintro (h | ⟨hm, ht, hx⟩)
    · exact Or.inl h
    · exact Or.inr ⟨_, hm, ht, hx⟩

end Edges

/-! ## The invariant -/

/-- What every walk from an entry module keeps: it only meets modules that can be reached, it does
not forget the entry module, it leaves no edge of a visited module behind, it visits no module
twice, and its targets are the recorded edges of the visited modules. -/
structure Explored (g : ModuleGraph) (static : StaticLookup) (entry : ModuleId) (w : Walk) :
    Prop where
  queue_reached : ∀ m ∈ w.queue, g.Reaches static entry m
  visited_reached : ∀ m ∈ w.visited, g.Reaches static entry m
  entry_met : entry ∈ w.visited ∨ entry ∈ w.queue
  edges_met : ∀ m ∈ w.visited, ∀ t, g.Leads static m t → t ∈ w.visited ∨ t ∈ w.queue
  visited_nodup : w.visited.Nodup
  targets_recorded : ∀ t, t ∈ w.targets ↔ ∃ m ∈ w.visited, g.Records m t

section Invariant

variable {g : ModuleGraph} {static : StaticLookup} {entry : ModuleId} {w : Walk}

/-- The invariant holds before the first step. -/
lemma Explored.start (g : ModuleGraph) (static : StaticLookup) (entry : ModuleId) :
    g.Explored static entry (Walk.start entry) where
  queue_reached m hm := by
    rw [Walk.start, List.mem_singleton] at hm
    exact hm ▸ .refl
  visited_reached m hm := absurd hm List.not_mem_nil
  entry_met := Or.inr (List.mem_singleton.2 rfl)
  edges_met m hm := absurd hm List.not_mem_nil
  visited_nodup := List.nodup_nil
  targets_recorded t := by simp [Walk.start]

/-- Taking out a module that has been visited keeps the invariant. -/
lemma Explored.skip {m : ModuleId} {queue : List ModuleId} (h : g.Explored static entry w)
    (hq : w.queue = m :: queue) (hm : m ∈ w.visited) :
    g.Explored static entry { w with queue } where
  queue_reached x hx := h.queue_reached x (hq ▸ List.mem_cons_of_mem m hx)
  visited_reached := h.visited_reached
  entry_met := by
    rcases h.entry_met with he | he
    · exact Or.inl he
    · rcases List.mem_cons.1 (hq ▸ he) with rfl | he
      · exact Or.inl hm
      · exact Or.inr he
  edges_met x hx t ht := by
    rcases h.edges_met x hx t ht with hv | hv
    · exact Or.inl hv
    · rcases List.mem_cons.1 (hq ▸ hv) with rfl | hv
      · exact Or.inl hm
      · exact Or.inr hv
  visited_nodup := h.visited_nodup
  targets_recorded := h.targets_recorded

/-- What waits after a visit: what has waited, and the followed modules that are not visited. -/
lemma mem_queue_visit_iff {m t : ModuleId} {queue : List ModuleId} :
    t ∈ (g.visit static w m queue).queue ↔
      t ∈ queue ∨ (g.Leads static m t ∧ t ∉ (g.visit static w m queue).visited) := by
  simp only [visit, List.mem_append, List.mem_filter, mem_followed_iff, Bool.not_eq_true',
    List.contains_eq_mem, decide_eq_false_iff_not]

/-- Visiting a module for the first time keeps the invariant. -/
lemma Explored.visit {m : ModuleId} {queue : List ModuleId} (h : g.Explored static entry w)
    (hq : w.queue = m :: queue) (hm : m ∉ w.visited) :
    g.Explored static entry (g.visit static w m queue) := by
  have hreach : g.Reaches static entry m := h.queue_reached m (hq ▸ List.mem_cons_self)
  have hvisited : ∀ x, x ∈ (g.visit static w m queue).visited ↔ x ∈ w.visited ∨ x = m := by
    intro x
    simp [ModuleGraph.visit]
  -- a module that was met before is still met: the one that has left the queue is visited now
  have hmet : ∀ x, x ∈ w.visited ∨ x ∈ w.queue →
      x ∈ (g.visit static w m queue).visited ∨ x ∈ (g.visit static w m queue).queue := by
    rintro x (hx | hx)
    · exact Or.inl ((hvisited x).2 (Or.inl hx))
    · rcases List.mem_cons.1 (hq ▸ hx) with rfl | hx
      · exact Or.inl ((hvisited x).2 (Or.inr rfl))
      · exact Or.inr (mem_queue_visit_iff.2 (Or.inl hx))
  refine ⟨?_, ?_, hmet entry h.entry_met, ?_, ?_, ?_⟩
  · intro x hx
    rcases mem_queue_visit_iff.1 hx with hx | ⟨hx, -⟩
    · exact h.queue_reached x (hq ▸ List.mem_cons_of_mem m hx)
    · exact hreach.tail hx
  · intro x hx
    rcases (hvisited x).1 hx with hx | rfl
    · exact h.visited_reached x hx
    · exact hreach
  · intro x hx t ht
    rcases (hvisited x).1 hx with hx | rfl
    · exact hmet t (h.edges_met x hx t ht)
    · by_cases hv : t ∈ (g.visit static w x queue).visited
      · exact Or.inl hv
      · exact Or.inr (mem_queue_visit_iff.2 (Or.inr ⟨ht, hv⟩))
  · refine List.nodup_append.2 ⟨h.visited_nodup, List.nodup_singleton m, ?_⟩
    rintro a ha b hb rfl
    exact hm (List.mem_singleton.1 hb ▸ ha)
  · intro t
    simp only [ModuleGraph.visit, mem_addAll, mem_recorded_iff, h.targets_recorded t,
      List.mem_append, List.mem_singleton]
    constructor
    · rintro (⟨x, hx, ht⟩ | ht)
      · exact ⟨x, Or.inl hx, ht⟩
      · exact ⟨m, Or.inr rfl, ht⟩
    · rintro ⟨x, hx | rfl, ht⟩
      · exact Or.inl ⟨x, hx, ht⟩
      · exact Or.inr ht

/-- Every step keeps the invariant. -/
lemma Explored.step (h : g.Explored static entry w) :
    g.Explored static entry (g.step static w) := by
  unfold ModuleGraph.step
  rcases hq : w.queue with _ | ⟨m, queue⟩
  · exact h
  · by_cases hm : m ∈ w.visited
    · simpa [hm] using h.skip hq hm
    · simpa [hm] using h.visit hq hm

/-- Every run keeps the invariant. -/
lemma Explored.walkFor (h : g.Explored static entry w) (n : Nat) :
    g.Explored static entry (g.walkFor static n w) := by
  induction n generalizing w with
  | zero => exact h
  | succ n ih =>
    unfold ModuleGraph.walkFor
    split
    · exact h
    · exact ih h.step

/-- A walk that has ended has visited exactly what can be reached. -/
lemma Explored.mem_visited_iff (h : g.Explored static entry w) (hq : w.queue = []) (m : ModuleId) :
    m ∈ w.visited ↔ g.Reaches static entry m := by
  refine ⟨h.visited_reached m, fun hm => ?_⟩
  -- along the path from the entry module: with an empty queue every edge stays among the visited
  induction hm with
  | refl => exact h.entry_met.resolve_right (by simp [hq])
  | tail _ hlast ih => exact (h.edges_met _ ih _ hlast).resolve_right (by simp [hq])

/-- A walk that has ended has recorded exactly the recorded edges of what can be reached. -/
lemma Explored.mem_targets_iff (h : g.Explored static entry w) (hq : w.queue = []) (t : ModuleId) :
    t ∈ w.targets ↔ ∃ m, g.Reaches static entry m ∧ g.Records m t := by
  rw [h.targets_recorded t]
  simp only [h.mem_visited_iff hq]

end Invariant

/-! ## Ending

A module that waits several times is expanded once only, so the edges that are still to be followed
are those of the modules that are not visited yet. Every step takes one module out of the queue, and
whatever it adds is paid for by the edges of the module that it visits. -/

/-- How much a walk has before it: the modules that wait, and the edges of the modules among `S`
that have not been visited. -/
def pending (g : ModuleGraph) (static : StaticLookup) (S : Finset ModuleId) (w : Walk) : Nat :=
  w.queue.length + ∑ m ∈ S \ w.visited.toFinset, (g.followed static m).length

section Ending

variable {g : ModuleGraph} {static : StaticLookup} {entry : ModuleId} {w : Walk}
  {S : Finset ModuleId}

/-- A visit adds no more to the queue than it takes away from the edges before the walk. -/
lemma pending_visit_le {m : ModuleId} (queue : List ModuleId) (hm : m ∉ w.visited)
    (hS : g.followed static m ≠ [] → m ∈ S) :
    g.pending static S (g.visit static w m queue) ≤
      queue.length + ∑ x ∈ S \ w.visited.toFinset, (g.followed static x).length := by
  have hqueue : (g.visit static w m queue).queue.length ≤
      queue.length + (g.followed static m).length := by
    simp only [visit, List.length_append]
    exact Nat.add_le_add_left (List.length_filter_le _ _) _
  have hrest : S \ (g.visit static w m queue).visited.toFinset =
      (S \ w.visited.toFinset).erase m := by
    ext x
    simp only [visit, Finset.mem_sdiff, List.mem_toFinset, List.mem_append, List.mem_singleton,
      Finset.mem_erase]
    tauto
  unfold pending
  rw [hrest]
  by_cases hmem : m ∈ S \ w.visited.toFinset
  · rw [← Finset.add_sum_erase _ _ hmem]
    omega
  · have hnone : g.followed static m = [] := by
      by_contra hne
      exact hmem (Finset.mem_sdiff.2 ⟨hS hne, by simpa using hm⟩)
    rw [Finset.erase_eq_of_notMem hmem]
    rw [hnone, List.length_nil] at hqueue
    omega

/-- Every step of a walk with a module to take out brings its end nearer. -/
lemma pending_step_lt (hq : w.queue ≠ [])
    (hS : ∀ m ∈ w.queue, g.followed static m ≠ [] → m ∈ S) :
    g.pending static S (g.step static w) < g.pending static S w := by
  unfold step
  rcases hw : w.queue with _ | ⟨m, queue⟩
  · exact absurd hw hq
  · have hlength : w.queue.length = queue.length + 1 := by rw [hw, List.length_cons]
    by_cases hm : m ∈ w.visited
    · simp only [List.contains_eq_mem, hm, decide_true, if_true, pending]
      omega
    · have hle := pending_visit_le queue hm (hS m (hw ▸ List.mem_cons_self))
      simp only [List.contains_eq_mem, hm, decide_false, Bool.false_eq_true, if_false]
      unfold pending at hle ⊢
      omega

/-- A run with enough steps ends, when `S` holds every module with edges that can be reached. -/
lemma walkFor_ends (h : g.Explored static entry w)
    (hS : ∀ m, g.Reaches static entry m → g.followed static m ≠ [] → m ∈ S) {n : Nat}
    (hn : g.pending static S w ≤ n) : (g.walkFor static n w).queue = [] := by
  induction n generalizing w with
  | zero =>
    unfold pending at hn
    exact List.length_eq_zero_iff.1 (by simp only [walkFor]; omega)
  | succ n ih =>
    unfold walkFor
    split
    · rename_i hq
      exact List.isEmpty_iff.1 hq
    · rename_i hq
      have hlt : g.pending static S (g.step static w) < g.pending static S w :=
        pending_step_lt (by simpa using hq) fun m hm => hS m (h.queue_reached m hm)
      exact ih h.step (by omega)

/-- The elements at some keys are no more than those of the table. -/
lemma sum_length_getD_le {α : Type} (t : Table ModuleId (List α)) (S : Finset ModuleId) :
    ∑ m ∈ S, (t.getD m []).length ≤ edgeCount t := by
  have hkeys : ∑ m ∈ t.keys.toFinset, (t.getD m []).length = edgeCount t := by
    rw [List.sum_toFinset _ (show t.keys.Nodup from t.nodup_keys), edgeCount, List.length_flatten,
      Table.values, Table.keys, List.map_map, List.map_map]
    congr 1
    refine List.map_congr_left fun e he => ?_
    simp only [Function.comp_apply, Table.getD, Table.mem_entries_iff.1 he, Option.getD_some]
  rw [← hkeys, ← Finset.sum_filter_of_ne (p := (· ∈ t.keys))]
  · exact Finset.sum_le_sum_of_subset fun m hm => List.mem_toFinset.2 (Finset.mem_filter.1 hm).2
  · intro m _ hne
    by_contra hm
    refine hne ?_
    rw [Table.getD_of_none (Table.lookup_eq_none_iff.2 hm), List.length_nil]

/-- The walk over the static imports of a table ends. -/
lemma walk_ends (g : ModuleGraph) (static : Table ModuleId (List ModuleId)) (entry : ModuleId) :
    (g.walk static entry).queue = [] := by
  let S := g.dynamic.keys.toFinset ∪ static.keys.toFinset ∪ g.usages.keys.toFinset
  have hnone : ∀ {α : Type} (t : Table ModuleId (List α)) (m : ModuleId), m ∉ t.keys →
      t.get? m = none := fun t m hm => Table.lookup_eq_none_iff.2 hm
  refine walkFor_ends (Explored.start g _ entry) (S := S) (fun m _ hne => ?_) ?_
  · by_contra hm
    simp only [S, Finset.mem_union, List.mem_toFinset, not_or] at hm
    refine hne ?_
    simp [followed, dynamicTargets, staticTargets, usageTargets, Table.getD, hnone _ _ hm.1.1,
      hnone _ _ hm.1.2, hnone _ _ hm.2]
  · have hlength : ∀ m, (g.followed static.get? m).length ≤
        (g.dynamic.getD m []).length + (static.getD m []).length + (g.usages.getD m []).length := by
      intro m
      simp only [followed, dynamicTargets, staticTargets, usageTargets, List.length_append]
      have hs := List.length_filter_le (fun t => !isExcluded g.excluded t) (static.getD m [])
      have hu := List.length_filterMap_le g.lazyModule? (g.usages.getD m [])
      unfold Table.getD at hs hu ⊢
      omega
    calc g.pending static.get? S (Walk.start entry)
        ≤ 1 + ∑ m ∈ S, ((g.dynamic.getD m []).length + (static.getD m []).length +
            (g.usages.getD m []).length) := by
          simp only [pending, Walk.start, List.toFinset_nil, Finset.sdiff_empty,
            List.length_singleton]
          exact Nat.add_le_add_left (Finset.sum_le_sum fun m _ => hlength m) 1
      _ ≤ g.stepBound static := by
          rw [Finset.sum_add_distrib, Finset.sum_add_distrib, stepBound]
          have hd := sum_length_getD_le g.dynamic S
          have hs := sum_length_getD_le static S
          have hu := sum_length_getD_le g.usages S
          omega

/-- A run over an arbitrary look-up of static imports ends exactly when finitely many modules can be
reached. -/
lemma exists_walkFor_ends_iff (g : ModuleGraph) (static : StaticLookup) (entry : ModuleId) :
    (∃ n, (g.walkFor static n (Walk.start entry)).queue = []) ↔
      {m | g.Reaches static entry m}.Finite := by
  constructor
  · rintro ⟨n, hn⟩
    have hexp := (Explored.start g static entry).walkFor n
    have hset : {m | g.Reaches static entry m} =
        {m | m ∈ (g.walkFor static n (Walk.start entry)).visited} := by
      ext m
      exact (hexp.mem_visited_iff hn m).symm
    rw [hset]
    exact List.finite_toSet _
  · intro hfin
    exact ⟨_, walkFor_ends (Explored.start g static entry) (S := hfin.toFinset)
      (fun m hm _ => hfin.mem_toFinset.2 hm) le_rfl⟩

end Ending

/-! ## Exactness -/

/-- What a walk has to answer: it has ended, it has visited the modules that can be reached, and its
targets are the recorded edges of these modules. -/
structure Exact (g : ModuleGraph) (static : StaticLookup) (entry : ModuleId) (w : Walk) : Prop where
  ended : w.queue = []
  mem_visited_iff : ∀ m, m ∈ w.visited ↔ g.Reaches static entry m
  mem_targets_iff : ∀ t, t ∈ w.targets ↔ ∃ m, g.Reaches static entry m ∧ g.Records m t

/-- Every run that has ended is exact. -/
lemma exact_of_ended {g : ModuleGraph} {static : StaticLookup} {entry : ModuleId} {n : Nat}
    (hn : (g.walkFor static n (Walk.start entry)).queue = []) :
    g.Exact static entry (g.walkFor static n (Walk.start entry)) :=
  have hexp := (Explored.start g static entry).walkFor n
  ⟨hn, hexp.mem_visited_iff hn, hexp.mem_targets_iff hn⟩

/-- Graphs agree when every list of one holds the same elements as that of the other, in whatever
order and however often. -/
structure Agrees (g g' : ModuleGraph) : Prop where
  dynamic : ∀ m t, t ∈ g.dynamic.getD m [] ↔ t ∈ g'.dynamic.getD m []
  usages : ∀ m d, d ∈ g.usages.getD m [] ↔ d ∈ g'.usages.getD m []
  lazyModules : ∀ d, g.lazyModules.get? d = g'.lazyModules.get? d
  excluded : g.excluded = g'.excluded

/-- Graphs that agree record the same targets. -/
lemma Agrees.records_iff {g g' : ModuleGraph} (h : g.Agrees g') (m t : ModuleId) :
    g.Records m t ↔ g'.Records m t := by
  have hlazy : g.lazyModule? = g'.lazyModule? := by
    funext d
    simp only [lazyModule?, h.lazyModules]
  rw [← mem_recorded_iff, ← mem_recorded_iff]
  simp only [recorded, dynamicTargets, usageTargets, List.mem_append, List.mem_filterMap,
    h.dynamic, h.usages, hlazy]

/-- Graphs that agree lead to the same modules, over static imports that agree. -/
lemma Agrees.leads_iff {g g' : ModuleGraph} (h : g.Agrees g') {static static' : StaticLookup}
    (hs : ∀ m t, t ∈ (static m).getD [] ↔ t ∈ (static' m).getD []) (m t : ModuleId) :
    g.Leads static m t ↔ g'.Leads static' m t := by
  have hsplit : ∀ (g : ModuleGraph) (static : StaticLookup),
      g.Leads static m t ↔ g.Records m t ∨ t ∈ g.staticTargets static m := by
    intro g static
    rw [← mem_followed_iff, ← mem_recorded_iff]
    simp only [followed, recorded, List.mem_append]
    tauto
  rw [hsplit, hsplit, h.records_iff]
  simp only [staticTargets, List.mem_filter, hs, h.excluded]

/-- In graphs that agree, over static imports that agree, a walk has the same targets. -/
lemma Agrees.mem_targets_iff {g g' : ModuleGraph} (h : g.Agrees g')
    {static static' : Table ModuleId (List ModuleId)}
    (hs : ∀ m t, t ∈ static.getD m [] ↔ t ∈ static'.getD m []) (entry t : ModuleId) :
    t ∈ (g.walk static entry).targets ↔ t ∈ (g'.walk static' entry).targets := by
  have hreach : g.Reaches static.get? = g'.Reaches static'.get? := by
    unfold Reaches
    congr 1
    funext m t
    exact propext (h.leads_iff hs m t)
  have hexact := exact_of_ended (walk_ends g static entry)
  have hexact' := exact_of_ended (walk_ends g' static' entry)
  calc t ∈ (g.walk static entry).targets
      ↔ ∃ m, g.Reaches static.get? entry m ∧ g.Records m t := hexact.mem_targets_iff t
    _ ↔ ∃ m, g'.Reaches static'.get? entry m ∧ g'.Records m t := by
        simp only [hreach, h.records_iff]
    _ ↔ t ∈ (g'.walk static' entry).targets := (hexact'.mem_targets_iff t).symm

/-- **The walk from an entry module is exact.** Over the static imports of a table it ends, has
visited the modules that can be reached, and has recorded the recorded targets of these. Over an
arbitrary look-up, every run that has ended is exact, and one ends exactly when finitely many
modules can be reached. Neither of the two sets changes with the order or the repetition of what
the lists of the graph and of the table hold. -/
theorem walk_exact (g : ModuleGraph) (entry : ModuleId) :
    (∀ static : Table ModuleId (List ModuleId), g.Exact static.get? entry (g.walk static entry)) ∧
    (∀ lookup : StaticLookup,
      (∀ n, (g.walkFor lookup n (Walk.start entry)).queue = [] →
        g.Exact lookup entry (g.walkFor lookup n (Walk.start entry))) ∧
      ((∃ n, (g.walkFor lookup n (Walk.start entry)).queue = []) ↔
        {m | g.Reaches lookup entry m}.Finite)) ∧
    (∀ (g' : ModuleGraph) (static static' : Table ModuleId (List ModuleId)), g.Agrees g' →
      (∀ m t, t ∈ static.getD m [] ↔ t ∈ static'.getD m []) →
      (∀ m, m ∈ (g.walk static entry).visited ↔ m ∈ (g'.walk static' entry).visited) ∧
      (∀ t, t ∈ (g.walk static entry).targets ↔ t ∈ (g'.walk static' entry).targets)) := by
  have htable : ∀ (g : ModuleGraph) (static : Table ModuleId (List ModuleId)),
      g.Exact static.get? entry (g.walk static entry) :=
    fun g static => exact_of_ended (walk_ends g static entry)
  refine ⟨htable g, fun lookup => ⟨fun n => exact_of_ended, exists_walkFor_ends_iff g lookup entry⟩,
    fun g' static static' hg hs => ?_⟩
  have hreach : g.Reaches static.get? = g'.Reaches static'.get? := by
    unfold Reaches
    congr 1
    funext m t
    exact propext (hg.leads_iff hs m t)
  constructor
  · intro m
    rw [(htable g static).mem_visited_iff, (htable g' static').mem_visited_iff, hreach]
  · intro t
    rw [(htable g static).mem_targets_iff, (htable g' static').mem_targets_iff, hreach]
    simp only [hg.records_iff]

/-- A module that imports another dynamically, once or twice, and is imported by it: both walks
have ended, and they have the same targets. -/
theorem walk_exact_of_cycle :
    let once : ModuleGraph := ⟨Table.ofList [("a", ["b"])], Table.empty, Table.empty, ""⟩
    let twice : ModuleGraph := ⟨Table.ofList [("a", ["b", "b"])], Table.empty, Table.empty, ""⟩
    let static := Table.ofList [("b", ["a"])]
    once.Agrees twice ∧ (once.walkFor static.get? 3 (Walk.start "a")).queue = [] ∧
      once.Exact static.get? "a" (once.walkFor static.get? 3 (Walk.start "a")) ∧
      ∀ t, t ∈ (once.walk static "a").targets ↔ t ∈ (twice.walk static "a").targets := by
  intro once twice static
  have hagrees : once.Agrees twice := by
    refine ⟨fun m t => ?_, fun _ _ => Iff.rfl, fun _ => rfl, rfl⟩
    by_cases hm : "a" = m <;> simp [once, twice, Table.getD, Table.get?_ofList, Table.lookup, hm]
  have hended : (once.walkFor static.get? 3 (Walk.start "a")).queue = [] := by decide
  obtain ⟨-, hlookup, hsame⟩ := walk_exact once "a"
  exact ⟨hagrees, hended, (hlookup static.get?).1 3 hended,
    (hsame twice static static hagrees fun _ _ => Iff.rfl).2⟩

end RouteAssets.ModuleGraph
