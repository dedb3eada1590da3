import RouteAssets.Proofs.Graph.Reachability

/-!
# A walk expands every module once

A step **expands** a module when it reads the three lists of edges of the module (`expanding?`);
any other step takes out of the queue a module that has been expanded before. A module joins the
queue once for every edge that is met while the module is not visited, so that the queue may hold it
many times.

* **One step** (`visited_step`, `step_congr`): the visited modules are the expanded ones, and a step
  reads the edges of no other module than the one that it expands.
* **Runs** (`visited_walkFor`, `walkFor_congr`): the same for the modules that a run expands.
* **Once** (`walk_expands_once`): a walk ends; until then, and however long the loop is left to run,
  it expands each module that can be reached once and no other module.
-/

namespace RouteAssets.ModuleGraph

/-! ## One step -/

/-- The module whose edges the next step reads: the first one in the queue, unless it has been
visited. -/
def Walk.expanding? (w : Walk) : Option ModuleId :=
  match w.queue with
  | [] => none
  | m :: _ => if w.visited.contains m then none else some m

/-- Two graphs, each with its static imports, have the same edges from a module. -/
structure SameEdgesAt (g g' : ModuleGraph) (static static' : StaticLookup) (m : ModuleId) :
    Prop where
  recorded_eq : g'.recorded m = g.recorded m
  followed_eq : g'.followed static' m = g.followed static m

section Steps

variable {g g' : ModuleGraph} {static static' : StaticLookup} {w : Walk} {m : ModuleId}

/-- A step that expands a module visits it, and leaves the rest of the queue waiting. -/
lemma step_of_expanding (h : w.expanding? = some m) :
    ∃ queue, w.queue = m :: queue ∧ m ∉ w.visited ∧
      ∀ (g : ModuleGraph) (static : StaticLookup), g.step static w = g.visit static w m queue := by
  rcases w with ⟨_ | ⟨x, queue⟩, visited, targets⟩
  · cases h
  · by_cases hx : x ∈ visited
    · simp [Walk.expanding?, hx] at h
    · obtain rfl : x = m := by simpa [Walk.expanding?, hx] using h
      exact ⟨queue, rfl, hx, fun g static => by simp [step, hx]⟩

/-- A step that expands nothing takes a module out of the queue if there is one, in every graph. -/
lemma step_of_not_expanding (h : w.expanding? = none) (g : ModuleGraph) (static : StaticLookup) :
    g.step static w = { w with queue := w.queue.tail } := by
  rcases w with ⟨_ | ⟨m, queue⟩, visited, targets⟩
  · rfl
  · by_cases hm : m ∈ visited
    · simp [step, hm]
    · simp [Walk.expanding?, hm] at h

/-- The modules that a step visits are those that it expands. -/
lemma visited_step (g : ModuleGraph) (static : StaticLookup) (w : Walk) :
    (g.step static w).visited = w.visited ++ w.expanding?.toList := by
  cases h : w.expanding? with
  | none =>
    rw [step_of_not_expanding h, Option.toList_none, List.append_nil]
  | some m =>
    obtain ⟨queue, -, -, hstep⟩ := step_of_expanding h
    rw [hstep]
    rfl

/-- A step reads the edges of the module that it expands, and of no other. -/
lemma step_congr (h : ∀ m, w.expanding? = some m → g.SameEdgesAt g' static static' m) :
    g'.step static' w = g.step static w := by
  cases hw : w.expanding? with
  | none => rw [step_of_not_expanding hw, step_of_not_expanding hw]
  | some m =>
    obtain ⟨queue, -, -, hstep⟩ := step_of_expanding hw
    rw [hstep, hstep, visit, visit, (h m hw).recorded_eq, (h m hw).followed_eq]

end Steps

/-! ## Runs -/

/-- The modules that the next `n` steps of a walk expand, in order and as often as they do. -/
def expansions (g : ModuleGraph) (static : StaticLookup) : Nat → Walk → List ModuleId
  | 0, _ => []
  | n + 1, w => w.expanding?.toList ++ expansions g static n (g.step static w)

section Runs

variable {g g' : ModuleGraph} {static static' : StaticLookup} {w : Walk}

/-- A run does what its first step and the rest of it do, also where nothing waits. -/
lemma walkFor_succ (g : ModuleGraph) (static : StaticLookup) (n : Nat) (w : Walk) :
    g.walkFor static (n + 1) w = g.walkFor static n (g.step static w) := by
  rw [walkFor]
  split
  · rename_i hq
    have hstay : g.step static w = w := by
      rw [step, List.isEmpty_iff.1 hq]
    rw [hstay]
    cases n with
    | zero => rfl
    | succ n => rw [walkFor, if_pos hq]
  · rfl

/-- A longer run goes on where a shorter one stops. -/
lemma walkFor_add (g : ModuleGraph) (static : StaticLookup) (n k : Nat) (w : Walk) :
    g.walkFor static (n + k) w = g.walkFor static k (g.walkFor static n w) := by
  induction n generalizing w with
  | zero => rw [Nat.zero_add, walkFor]
  | succ n ih => rw [Nat.add_right_comm, walkFor_succ, walkFor_succ, ih]

/-- A walk that has ended stays as it is. -/
lemma walkFor_of_ended (hq : w.queue = []) (n : Nat) : g.walkFor static n w = w := by
  cases n with
  | zero => rfl
  | succ n => rw [walkFor, hq, List.isEmpty_nil, if_pos rfl]

/-- The modules that a run visits are those that it expands. -/
lemma visited_walkFor (g : ModuleGraph) (static : StaticLookup) (n : Nat) (w : Walk) :
    (g.walkFor static n w).visited = w.visited ++ g.expansions static n w := by
  induction n generalizing w with
  | zero => rw [walkFor, expansions, List.append_nil]
  | succ n ih => rw [walkFor_succ, ih, visited_step, expansions, List.append_assoc]

/-- A run reads the edges of the modules that it expands, and of no others. -/
lemma walkFor_congr {n : Nat}
    (h : ∀ m ∈ g.expansions static n w, g.SameEdgesAt g' static static' m) :
    g'.walkFor static' n w = g.walkFor static n w := by
  induction n generalizing w with
  | zero => rfl
  | succ n ih =>
    rw [expansions] at h
    have hstep : g'.step static' w = g.step static w := by
      refine step_congr fun m hm => h m (List.mem_append_left _ ?_)
      rw [hm]
      exact List.mem_singleton_self m
    rw [walkFor_succ, walkFor_succ, hstep]
    exact ih fun m hm => h m (List.mem_append_right _ hm)

/-- What a walk from an entry module expands can be reached. -/
lemma reaches_of_mem_expansions {entry m : ModuleId} {n : Nat}
    (hm : m ∈ g.expansions static n (Walk.start entry)) : g.Reaches static entry m := by
  refine ((Explored.start g static entry).walkFor n).visited_reached m ?_
  rw [visited_walkFor]
  exact List.mem_append_right _ hm

end Runs

/-! ## Once -/

/-- The graph of one module that imports another one a number of times. -/
def importing (entry m : ModuleId) (k : Nat) : ModuleGraph where
  dynamic := Table.ofList [(entry, List.replicate k m)]
  usages := Table.empty
  lazyModules := Table.empty
  excluded := ""

/-- A module that the entry module imports a number of times waits as often once the entry module
is expanded. -/
lemma queue_of_importing {entry m : ModuleId} (hm : m ≠ entry) (k : Nat) :
    (importing entry m k).expansions Table.empty.get? 1 (Walk.start entry) = [entry] ∧
      ((importing entry m k).walkFor Table.empty.get? 1 (Walk.start entry)).queue =
        List.replicate k m := by
  have hfollowed : (importing entry m k).followed Table.empty.get? entry = List.replicate k m := by
    simp [importing, followed, dynamicTargets, staticTargets, usageTargets, Table.getD,
      Table.get?_ofList, Table.lookup]
  constructor
  · rfl
  · simp [walkFor, step, visit, Walk.start, hfollowed, hm]

/-- **A walk ends, and expands what can be reached once.** Over any dynamic imports, static imports
and requested dependencies, with whatever cycles and repetitions, the queue of the walk is empty
after as many steps as there are edges and one more, however long the loop is left to run. In that
time it expands each module that can be reached exactly once and no other module, so that edges of
other modules do not change any step. A module may wait any number of times before it is expanded.
-/
theorem walk_expands_once :
    (∀ (g : ModuleGraph) (static : Table ModuleId (List ModuleId)) (entry : ModuleId) (k : Nat),
      let n := g.stepBound static + k
      (g.walkFor static.get? n (Walk.start entry)).queue = [] ∧
      (∀ m, (g.Reaches static.get? entry m →
          (g.expansions static.get? n (Walk.start entry)).count m = 1) ∧
        (¬ g.Reaches static.get? entry m →
          (g.expansions static.get? n (Walk.start entry)).count m = 0)) ∧
      ∀ (dynamic static' : Table ModuleId (List ModuleId)) (usages : Table ModuleId (List DepId)),
        (∀ m, g.Reaches static.get? entry m → dynamic.get? m = g.dynamic.get? m ∧
          static'.get? m = static.get? m ∧ usages.get? m = g.usages.get? m) →
        ∀ i, ModuleGraph.walkFor { g with dynamic, usages } static'.get? i (Walk.start entry) =
          g.walkFor static.get? i (Walk.start entry)) ∧
    ∀ k : Nat, ∃ (g : ModuleGraph) (static : Table ModuleId (List ModuleId)) (entry m : ModuleId)
      (i : Nat), g.Reaches static.get? entry m ∧
        m ∉ g.expansions static.get? i (Walk.start entry) ∧
        (g.walkFor static.get? i (Walk.start entry)).queue.count m = k + 1 := by
  constructor
  · intro g static entry k n
    have hwalk : g.walkFor static.get? n (Walk.start entry) = g.walk static entry := by
      rw [walkFor_add]
      exact walkFor_of_ended (walk_ends g static entry) k
    have hended : (g.walkFor static.get? n (Walk.start entry)).queue = [] :=
      hwalk ▸ walk_ends g static entry
    have hexplored := (Explored.start g static.get? entry).walkFor n
    have hvisited : (g.walkFor static.get? n (Walk.start entry)).visited =
        g.expansions static.get? n (Walk.start entry) := visited_walkFor g _ n _
    refine ⟨hended, fun m => ⟨fun hm => ?_, fun hm => ?_⟩, ?_⟩
    · rw [← hvisited]
      exact List.count_eq_one_of_mem hexplored.visited_nodup
        ((hexplored.mem_visited_iff hended m).2 hm)
    · exact List.count_eq_zero_of_not_mem fun hmem => hm (reaches_of_mem_expansions hmem)
    · intro dynamic static' usages hsame i
      refine walkFor_congr fun m hm => ?_
      obtain ⟨hd, hs, hu⟩ := hsame m (reaches_of_mem_expansions hm)
      have husages : usageTargets { g with dynamic, usages } m = g.usageTargets m := by
        simp only [usageTargets, Table.getD, hu]
        rfl
      constructor
      · simp only [recorded, dynamicTargets, husages, Table.getD, hd]
      · simp only [followed, dynamicTargets, staticTargets, husages, Table.getD, hd, hs]
  · intro k
    obtain ⟨hexpanded, hqueue⟩ := queue_of_importing (by decide : "m" ≠ "entry") (k + 1)
    have hleads : (importing "entry" "m" (k + 1)).Leads Table.empty.get? "entry" "m" :=
      .recorded (.dynamic rfl (List.mem_replicate.2 ⟨k.succ_ne_zero, rfl⟩))
    refine ⟨importing "entry" "m" (k + 1), Table.empty, "entry", "m", 1, .single hleads, ?_, ?_⟩
    · rw [hexpanded]
      decide
    · rw [hqueue, List.count_replicate_self]

/-- A module that imports another one twice and is imported by it: both are expanded once, and the
imports of a third module, which cannot be reached, are not read. -/
theorem walk_expands_once_of_cycle :
    let g : ModuleGraph :=
      ⟨Table.ofList [("a", ["b", "b"]), ("c", ["d"])], Table.empty, Table.empty, ""⟩
    let dynamic : Table ModuleId (List ModuleId) := Table.ofList [("a", ["b", "b"]), ("c", [])]
    let static : Table ModuleId (List ModuleId) := Table.ofList [("b", ["a"])]
    let expanded := g.expansions static.get? (g.stepBound static + 2) (Walk.start "a")
    (∀ m, g.Reaches static.get? "a" m ↔ m = "a" ∨ m = "b") ∧
      expanded.count "b" = 1 ∧ expanded.count "c" = 0 ∧
      ∀ i, ModuleGraph.walkFor { g with dynamic } static.get? i (Walk.start "a") =
        g.walkFor static.get? i (Walk.start "a") := by
  intro g dynamic static expanded
  obtain ⟨-, hcount, hunread⟩ := walk_expands_once.1 g static "a" 2
  have hreaches : ∀ m, g.Reaches static.get? "a" m ↔ m = "a" ∨ m = "b" := by
    intro m
    have hvisited : (g.walk static "a").visited = ["a", "b"] := by decide
    rw [← (exact_of_ended (walk_ends g static "a")).mem_visited_iff m]
    unfold walk at hvisited
    rw [hvisited]
    simp
  refine ⟨hreaches, (hcount "b").1 ((hreaches "b").2 (Or.inr rfl)),
    (hcount "c").2 fun h => by simpa using (hreaches "c").1 h, hunread dynamic static g.usages ?_⟩
  intro m hm
  rcases (hreaches m).1 hm with rfl | rfl
  · exact ⟨rfl, rfl, rfl⟩
  · exact ⟨rfl, rfl, rfl⟩

end RouteAssets.ModuleGraph
