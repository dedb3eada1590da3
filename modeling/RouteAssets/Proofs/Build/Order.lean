import RouteAssets.Proofs.Build.Growth
import RouteAssets.Proofs.Build.Run
import RouteAssets.Proofs.Graph.Reachability

/-!
# The order of modules does not show

Findings are the **same up to order** (`SameUpToOrder`) when they have the same routes, and
dependencies that stand for the same, and when every module has the same edges in them, listed in
whatever order.

* **Route maps** (`generate_congr`): findings that are the same up to order give the same map, since
  a walk does not notice the order of edges and the files of a route are sorted.
* **Answers** (`answered_of_readModules`): where modules are read together without a failure, each
  of their paths has been opened and finished without one.
* **Order** (`readModules_order`): modules that are read without a failure are so in any order and
  any number of times, and what has been found is the same up to order.
-/

namespace RouteAssets

open RouteAssets.Script RouteAssets.Text

/-- Findings that differ in nothing but the order of edges. -/
structure Findings.SameUpToOrder (f f' : Findings) : Prop extends f.SameBeginning f' where
  static_iff : ∀ m t, t ∈ f.static.getD m [] ↔ t ∈ f'.static.getD m []
  dynamic_iff : ∀ m t, t ∈ f.dynamic.getD m [] ↔ t ∈ f'.dynamic.getD m []
  usage_iff : ∀ m x, x ∈ f.usages.getD m [] ↔ x ∈ f'.usages.getD m []
  isClosed_eq : f'.isClosed = f.isClosed

/-- Findings are the same as themselves. -/
lemma Findings.SameUpToOrder.refl (f : Findings) : f.SameUpToOrder f :=
  ⟨.refl f, fun _ _ => Iff.rfl, fun _ _ => Iff.rfl, fun _ _ => Iff.rfl, rfl⟩

/-! ## Route maps -/

namespace Build

section Generation

variable {f f' : Findings} (o : Options) (cs : List (Chunk Json))

/-- Findings that are the same up to order give every route the same files. -/
lemma routeFiles_congr (h : f.SameUpToOrder f') :
    routeFiles (neededModules o f) cs = routeFiles (neededModules o f') cs := by
  have hagrees : (f.graph o.excluded).Agrees (f'.graph o.excluded) :=
    ⟨h.dynamic_iff, h.usage_iff, fun d => by simp only [Findings.graph, h.lazyModules_eq], rfl⟩
  have hmodules : ∀ r m, m ∈ ((f.graph o.excluded).routeModules f.static r).1 ↔
      m ∈ ((f'.graph o.excluded).routeModules f'.static r).1 := by
    intro r m
    unfold ModuleGraph.routeModules
    cases r.entryModule? with
    | none => exact Iff.rfl
    | some entry => simp only [mem_addNew, hagrees.mem_targets_iff h.static_iff]
  have hfiles : ∀ byModule styles, Chunk.routeFiles (neededModules o f) byModule styles =
      Chunk.routeFiles (neededModules o f') byModule styles := by
    intro byModule styles
    simp only [neededModules, ModuleGraph.routeDependencies, Chunk.routeFiles, Table.map_ofList,
      List.map_map, h.routes_eq]
    congr 1
    apply List.map_congr_left
    intro r _
    refine Prod.ext rfl (sortedSet_congr fun file => ?_)
    simp only [Function.comp_apply, List.mem_flatMap, hmodules]
  simp only [routeFiles, hfiles]

/-- Findings that are the same up to order give the same route map, or the same failure. -/
lemma generate_congr {b b' : Build} (h : b.findings.SameUpToOrder b'.findings) :
    (outcome (generate o cs) b).1 = (outcome (generate o cs) b').1 := by
  have hfiles := routeFiles_congr o cs h
  unfold neededModules at hfiles
  unfold generate
  rw [outcome_bind_ok (outcome_get b), outcome_bind_ok (outcome_get b')]
  dsimp only
  rw [hfiles]
  generalize routeFiles _ cs = files
  rw [outcome_bind_ok (outcome_tell b _), outcome_bind_ok (outcome_tell b' _)]
  cases files with
  | error m => rfl
  | ok files =>
    rw [outcome_bind_ok (outcome_demand_ok _ _), outcome_bind_ok (outcome_demand_ok _ _)]
    cases o.chunkPatterns with
    | error m =>
      cases o.addsImportedChunks <;> rfl
    | ok patterns =>
      cases o.addsImportedChunks <;> cases patterns <;> rfl

end Generation

/-! ## Answers -/

section Answers

variable {α β : Type} {o : Options} {d : Disk}

/-- Where steps for the items of a list answer, each of them has answered, in a build that keeps the
edges of the first one. -/
lemma answered_of_mapM {f : α → BuildStep β}
    (hf : ∀ x, Moves (InvImage Findings.Keeps Build.findings) β (f x)) {xs : List α} {ys : List β}
    {b b' : Build} (h : outcome (xs.mapM f) b = (.ok ys, b')) :
    ∀ x ∈ xs, ∃ c, b.findings.Keeps c.findings ∧ ∃ y ∈ ys, (outcome (f x) c).1 = .ok y := by
  induction xs generalizing b ys with
  | nil => simp
  | cons x xs ih =>
    rw [List.mapM_cons] at h
    obtain ⟨y, b₁, hx, h⟩ := exists_of_outcome_bind h
    obtain ⟨rest, b₂, hrest, h⟩ := exists_of_outcome_bind h
    cases h
    have hkeeps : b.findings.Keeps b₁.findings := by
      have hmoves := hf x b
      rw [hx] at hmoves
      exact hmoves
    intro z hz
    rcases List.mem_cons.1 hz with rfl | hz
    · exact ⟨b, .refl _, y, List.mem_cons_self, congrArg Prod.fst hx⟩
    · obtain ⟨c, hc, w, hw, hanswer⟩ := ih hrest z hz
      exact ⟨c, hkeeps.trans hc, w, List.mem_cons_of_mem y hw, hanswer⟩

/-- Results that are all settled are answers. -/
lemma ok_of_mapM_settle {results : List (Except BuildFault α)} {ys : List α} {b b' : Build}
    (h : outcome (results.mapM settle) b = (.ok ys, b')) :
    ∀ result ∈ results, ∃ y, result = .ok y := by
  have hsettle : ∀ result : Except BuildFault α,
      Moves (InvImage Findings.Keeps Build.findings) α (settle result) :=
    fun result => begins_grows.toComposes.settle result
  intro result hresult
  obtain ⟨c, -, y, -, hy⟩ := answered_of_mapM hsettle h result hresult
  rw [outcome_settle] at hy
  exact ⟨y, hy⟩

/-- Results without a value that are all settled are answers. -/
lemma ok_of_forM_settle {results : List (Except BuildFault PUnit)} {b b' : Build}
    (h : outcome (results.forM settle) b = (.ok ⟨⟩, b')) : ∀ result ∈ results, result = .ok ⟨⟩ := by
  induction results generalizing b with
  | nil => simp
  | cons result results ih =>
    obtain ⟨⟨⟩, b₁, hfirst, hrest⟩ := exists_of_outcome_bind h
    rw [outcome_settle] at hfirst
    intro other hother
    rcases List.mem_cons.1 hother with rfl | hother
    · exact congrArg Prod.fst hfirst
    · exact ih hrest other hother

/-- Where modules are read together without a failure, each path has been opened without one, in
findings that are open or closed as they were, and what has been opened has been finished. -/
lemma answered_of_readModules {files : List Path} {count : Nat} {b b' : Build}
    (h : outcome (readModules o d files) b = (.ok count, b')) {p : Path} (hp : p ∈ files) :
    ∃ c found, b.findings.Keeps c.findings ∧ (outcome (openModule o d p) c).1 = .ok found ∧
      ∀ m, found = some m → ∃ c', (outcome (finishModule o d m) c').1 = .ok () := by
  have hgrows := begins_grows.toCollects
  unfold readModules at h
  obtain ⟨opened, b₁, hopened, h⟩ := exists_of_outcome_bind h
  obtain ⟨finished, b₂, hfinished, h⟩ := exists_of_outcome_bind h
  obtain ⟨modules, b₃, hmodules, h⟩ := exists_of_outcome_bind h
  obtain ⟨⟨⟩, b₄, hsettled, -⟩ := exists_of_outcome_bind h
  obtain ⟨c, hc, result, hresult, hattempt⟩ :=
    answered_of_mapM (fun p => hgrows.on_attempt (hgrows.openModule o d p)) hopened p hp
  obtain ⟨found, rfl⟩ := ok_of_mapM_settle hmodules result hresult
  refine ⟨c, found, hc, by simpa using hattempt, ?_⟩
  rintro m rfl
  have hfinish : ∀ result, Moves (InvImage Findings.Keeps Build.findings) _
      (finishing o d result) := by
    intro result
    unfold finishing
    split
    · exact hgrows.on_attempt (hgrows.finishModule o d _)
    · exact hgrows.on_pure _
  obtain ⟨c', -, last, hlast, hanswer⟩ := answered_of_mapM hfinish hfinished _ hresult
  obtain rfl := ok_of_forM_settle hsettled last hlast
  exact ⟨c', by simpa [finishing] using hanswer⟩

/-- Findings that have taken something in are open. -/
lemma isOpen_of_outcome_change {change : Findings → Findings} {b b' : Build}
    (h : outcome (record fun f => f.change change) b = (.ok (), b')) :
    b.findings.isClosed = false := by
  cases hclosed : b.findings.isClosed with
  | false => rfl
  | true =>
    have hrefused : b.findings.change change = .error {} := by
      rw [Findings.change, hclosed]
      rfl
    rw [outcome_record_error b hrefused] at h
    cases h

/-- A module that has been opened needs rules for looking up modules, and findings that are open. -/
lemma needs_of_openModule {p : Path} {m : Opened} (hm : opened? d p = some m)
    {found : Option Opened} {c : Build} (h : (outcome (openModule o d p) c).1 = .ok found) :
    found = some m ∧ (∃ rules, o.lookup = .ok rules) ∧ c.findings.isClosed = false := by
  obtain ⟨hcompiled, source, root, hsource, hroot, rfl⟩ := exists_source_of_opened hm
  rcases hstep : outcome (openModule o d p) c with ⟨result, c'⟩
  rw [hstep] at h
  obtain rfl : result = .ok found := h
  unfold openModule at hstep
  dsimp only at hstep
  rw [hcompiled, hsource] at hstep
  obtain ⟨source', c₁, hread, hstep⟩ := exists_of_outcome_bind hstep
  cases hread
  simp only [hroot] at hstep
  obtain ⟨rules, c₂, hrules, hstep⟩ := exists_of_outcome_bind hstep
  obtain ⟨targets, c₃, htargets, hstep⟩ := exists_of_outcome_bind hstep
  obtain ⟨⟨⟩, c₄, hrecord, hstep⟩ := exists_of_outcome_bind hstep
  cases hstep
  have hlookup := eq_ok_of_outcome_demand hrules
  rw [hlookup] at hrules
  cases hrules
  have hkeeps := begins_grows.toComposes.staticTargets d rules (d.resolve p).toString
    (Imports.staticSpecifiers root) c
  rw [htargets] at hkeeps
  exact ⟨rfl, ⟨rules, hlookup⟩, hkeeps.isClosed_eq ▸ isOpen_of_outcome_change hrecord⟩

/-- A module that has been finished needs a vocabulary. -/
lemma needs_of_finishModule {m : Opened} {c : Build}
    (h : (outcome (finishModule o d m) c).1 = .ok ()) :
    ∃ vocabulary, o.vocabulary = .ok vocabulary := by
  rcases hstep : outcome (finishModule o d m) c with ⟨result, c'⟩
  rw [hstep] at h
  obtain rfl : result = .ok () := h
  unfold finishModule at hstep
  obtain ⟨rules, c₁, -, hstep⟩ := exists_of_outcome_bind hstep
  obtain ⟨⟨targets, notices⟩, c₂, -, hstep⟩ := exists_of_outcome_bind hstep
  obtain ⟨⟨⟩, c₃, -, hstep⟩ := exists_of_outcome_bind hstep
  have hvocabulary : ∀ {c c' : Build} {next : Usage.Vocabulary → BuildStep Unit},
      outcome (demand o.vocabulary >>= next) c = (.ok (), c') →
        ∃ vocabulary, o.vocabulary = .ok vocabulary := by
    intro c c' next hrest
    obtain ⟨vocabulary, c₁, hdemand, -⟩ := exists_of_outcome_bind hrest
    exact ⟨vocabulary, eq_ok_of_outcome_demand hdemand⟩
  dsimp only at hstep
  split at hstep
  · exact hvocabulary hstep
  · obtain ⟨⟨⟩, c₄, -, hstep⟩ := exists_of_outcome_bind hstep
    exact hvocabulary hstep

/-- A path without a module that has been opened once is opened in every build, and leaves it as it
is. -/
lemma outcome_openModule_of_none {p : Path} (hp : opened? d p = none) {found : Option Opened}
    {c : Build} (h : (outcome (openModule o d p) c).1 = .ok found) (b : Build) :
    ∃ ns, outcome (openModule o d p) b = (.ok none, { b with notices := ns }) := by
  unfold openModule at h ⊢
  dsimp only at h ⊢
  cases hcompiled : ModuleId.isCompiled (d.resolve p).toString with
  | false => exact ⟨b.notices, rfl⟩
  | true =>
    rw [hcompiled] at h
    cases hsource : Source.ofFile d (d.resolve p) with
    | error e =>
      rw [hsource] at h
      cases h
    | ok source =>
      have hroot : source.root? = none := by simpa [opened?, hcompiled, hsource] using hp
      have hread : outcome (onDisk (.ok source)) b = (.ok source, b) := rfl
      simp only [Bool.not_true, Bool.false_eq_true, if_false]
      rw [outcome_bind_ok hread]
      simp only [hroot]
      exact ⟨_, rfl⟩

end Answers

/-! ## Order -/

section Order

variable {α β : Type} {o : Options} {d : Disk}

/-- Steps for the items of a list that only answer and say something. -/
lemma outcome_mapM_of_idle {f : α → BuildStep β} {g : α → β} {xs : List α}
    (h : ∀ x ∈ xs, ∀ b, ∃ ns, outcome (f x) b = (.ok (g x), { b with notices := ns })) (b : Build) :
    ∃ ns, outcome (xs.mapM f) b = (.ok (xs.map g), { b with notices := ns }) := by
  induction xs generalizing b with
  | nil => exact ⟨b.notices, rfl⟩
  | cons x xs ih =>
    obtain ⟨hx, hxs⟩ := List.forall_mem_cons.1 h
    obtain ⟨ns, hfirst⟩ := hx b
    obtain ⟨ns', hrest⟩ := ih hxs { b with notices := ns }
    refine ⟨ns', ?_⟩
    rw [List.mapM_cons, outcome_bind_ok hfirst, outcome_bind_ok hrest]
    rfl

/-- Paths without modules leave the findings as they are, only closed. -/
lemma outcome_readModules_of_idle {files : List Path}
    (h : ∀ p ∈ files, ∀ b, ∃ ns,
      outcome (openModule o d p) b = (.ok none, { b with notices := ns }))
    (b : Build) : ∃ count ns, outcome (readModules o d files) b =
      (.ok count, { b with findings := b.findings.close, notices := ns }) := by
  have hopen : ∀ p ∈ files, ∀ b, ∃ ns, outcome (attempt (openModule o d p)) b =
      (.ok (.ok none), { b with notices := ns }) := by
    intro p hp b
    obtain ⟨ns, hstep⟩ := h p hp b
    exact ⟨ns, by rw [outcome_attempt, hstep]⟩
  have hfinish : ∀ result ∈ files.map fun _ => Except.ok none, ∀ b, ∃ ns,
      outcome (finishing o d result) b = (.ok (.ok ()), { b with notices := ns }) := by
    intro result hresult b
    obtain ⟨p, -, rfl⟩ := List.mem_map.1 hresult
    exact ⟨b.notices, rfl⟩
  have hsettle : ∀ result ∈ files.map fun _ => (Except.ok none : Except BuildFault (Option Opened)),
      ∀ b, ∃ ns, outcome (settle result) b = (.ok none, { b with notices := ns }) := by
    intro result hresult b
    obtain ⟨p, -, rfl⟩ := List.mem_map.1 hresult
    exact ⟨b.notices, rfl⟩
  have hlast : ∀ (results : List (Except BuildFault (Option Opened))) (b : Build),
      outcome ((results.map fun _ => (.ok ⟨⟩ : Except BuildFault PUnit)).forM settle) b =
        (.ok ⟨⟩, b) := by
    intro results b
    induction results with
    | nil => rfl
    | cons result results ih => exact ih
  obtain ⟨ns₁, h₁⟩ := outcome_mapM_of_idle hopen b
  obtain ⟨ns₂, h₂⟩ := outcome_mapM_of_idle hfinish { b with notices := ns₁ }
  obtain ⟨ns₃, h₃⟩ := outcome_mapM_of_idle hsettle { b with notices := ns₂ }
  unfold readModules
  refine ⟨_, _, (outcome_bind_ok h₁).trans ((outcome_bind_ok h₂).trans ((outcome_bind_ok h₃).trans
    ((outcome_bind_ok (hlast _ _)).trans rfl)))⟩

/-- The options with nothing in them that reading modules does not ask for. -/
def onlyModules (o : Options) : Options :=
  { o with registrationFiles := [], usageFile := .ok none, chunkPatterns := .ok [] }

/-- Changes that add the same edges leave the same findings, up to order. -/
lemma sameUpToOrder_of_adds {c c' : Findings → Findings} {e e' : Edges} (h : Adds c e)
    (h' : Adds c' e') (hs : ∀ m t, e.static m t ↔ e'.static m t)
    (hd : ∀ m t, e.dynamic m t ↔ e'.dynamic m t) (hu : ∀ m x, e.usage m x ↔ e'.usage m x)
    (f : Findings) : (c f).close.SameUpToOrder (c' f).close where
  routes_eq := (h'.routes_eq f).trans (h.routes_eq f).symm
  routerImports_eq := (h'.routerImports_eq f).trans (h.routerImports_eq f).symm
  lazyModules_eq := (h'.lazyModules_eq f).trans (h.lazyModules_eq f).symm
  static_iff m t := (h.static_iff f m t).trans (by rw [hs, ← h'.static_iff]; rfl)
  dynamic_iff m t := (h.dynamic_iff f m t).trans (by rw [hd, ← h'.dynamic_iff]; rfl)
  usage_iff m x := (h.usage_iff f m x).trans (by rw [hu, ← h'.usage_iff]; rfl)
  isClosed_eq := rfl

/-- Modules that are read without a failure are so in any order and any number of times, and what
has been found is the same up to order. -/
lemma exists_outcome_readModules {b b₁ : Build} {files files' : List Path} {count : Nat}
    (hmemory : ∀ rules, o.lookup = .ok rules → b.memory.Coherent rules d)
    (hfiles : ∀ p, p ∈ files ↔ p ∈ files')
    (h : outcome (readModules o d files) b = (.ok count, b₁)) :
    ∃ count' b₂, outcome (readModules o d files') b = (.ok count', b₂) ∧
      b₁.findings.SameUpToOrder b₂.findings := by
  by_cases hnone : ∀ p ∈ files, opened? d p = none
  · -- no module: nothing is taken in, neither now nor in another order
    have hidle : ∀ p ∈ files, ∀ b, ∃ ns,
        outcome (openModule o d p) b = (.ok none, { b with notices := ns }) := by
      intro p hp
      obtain ⟨c, found, -, hanswer, -⟩ := answered_of_readModules h hp
      exact outcome_openModule_of_none (hnone p hp) hanswer
    obtain ⟨count₁, ns₁, h₁⟩ := outcome_readModules_of_idle hidle b
    obtain ⟨count₂, ns₂, h₂⟩ :=
      outcome_readModules_of_idle (fun p hp => hidle p ((hfiles p).2 hp)) b
    cases h.symm.trans h₁
    exact ⟨_, _, h₂, .refl _⟩
  · -- one module at least: it has asked for the rules and the vocabulary, and the findings are open
    push Not at hnone
    obtain ⟨p, hp, hsome⟩ := hnone
    obtain ⟨m, hm⟩ := Option.ne_none_iff_exists'.1 hsome
    obtain ⟨c, found, hkeeps, hopened, hfinished⟩ := answered_of_readModules h hp
    obtain ⟨hfound, ⟨rules, hrules⟩, hopen⟩ := needs_of_openModule hm hopened
    obtain ⟨c', hanswer⟩ := hfinished m hfound
    obtain ⟨vocabulary, hvocabulary⟩ := needs_of_finishModule hanswer
    let s : Settings (onlyModules o) := ⟨rules, [], none, vocabulary, [], hrules, rfl, rfl,
      hvocabulary, rfl⟩
    have hready : Ready s.rules d b := ⟨hmemory rules hrules, hkeeps.isClosed_eq ▸ hopen⟩
    have hopens : ∀ p ∈ files, Opens s d p := by
      intro p hp
      by_contra hnot
      obtain ⟨e, b', herror⟩ := fails_readModules ⟨p, hp, hnot⟩ b hready
      cases h.symm.trans herror
    obtain ⟨count₁, b', h₁, hf₁⟩ := outcome_readModules hopens hready
    obtain ⟨count₂, b₂, h₂, hf₂⟩ :=
      outcome_readModules (fun p hp => hopens p ((hfiles p).2 hp)) hready
    cases h.symm.trans h₁
    refine ⟨count₂, b₂, h₂, ?_⟩
    have hmodules : ∀ n, n ∈ files.filterMap (opened? d) ↔ n ∈ files'.filterMap (opened? d) := by
      intro n
      simp only [List.mem_filterMap, hfiles]
    rw [hf₁, hf₂]
    refine sameUpToOrder_of_adds (adds_modulesChange s d files) (adds_modulesChange s d files')
      ?_ ?_ ?_ b.findings
    · intro m t
      simp only [Edges.ofAll, hmodules]
    · intro m t
      simp only [Edges.ofAll, hmodules]
    · intro m x
      simp only [Edges.ofAll, hmodules]

/-- **The order in which modules are read does not show.** On a disk that does not change, modules
that are read without a failure are so in any order and any number of times. The findings are then
the same up to order, so that for all chunks the same route map is generated, or the same failure.
-/
theorem readModules_order {b b₁ : Build} {files files' : List Path} {count : Nat}
    (hmemory : ∀ rules, o.lookup = .ok rules → b.memory.Coherent rules d)
    (hfiles : ∀ p, p ∈ files ↔ p ∈ files')
    (h : outcome (readModules o d files) b = (.ok count, b₁)) :
    ∃ count' b₂, outcome (readModules o d files') b = (.ok count', b₂) ∧
      b₁.findings.SameUpToOrder b₂.findings ∧
      ∀ cs, (outcome (generate o cs) b₁).1 = (outcome (generate o cs) b₂).1 := by
  obtain ⟨count', b₂, h', hsame⟩ := exists_outcome_readModules hmemory hfiles h
  exact ⟨count', b₂, h', hsame, fun cs => generate_congr o cs hsame⟩

/-- Two scripts that import each other, read once in one order, and in the other order with one of
them read twice: the findings list the modules in another order, and are the same otherwise. -/
theorem readModules_order_of_pair :
    let script := fun text => Disk.Node.file (writeUtf8 (String.toList text))
    let disk : Disk := {
      nodes := Table.ofList [(["app"], .directory), (["app", "a.js"], script "import './b'"),
        (["app", "b.js"], script "import './a'; import('./a')")]
      workingDirectory := ["app"] }
    let a := Path.ofString "/app/a.js"
    let b := Path.ofString "/app/b.js"
    let read := fun files => outcome (readModules listingOptions disk files) Build.start
    (∃ count, (read [a, b]).1 = .ok count) ∧
      (read [a, b]).2.findings ≠ (read [b, a, b]).2.findings ∧
      (read [a, b]).2.findings.SameUpToOrder (read [b, a, b]).2.findings := by
  intro script disk a b read
  have hanswer : ∃ count, (read [a, b]).1 = .ok count := by decide +kernel
  have hdiffer : (read [a, b]).2.findings ≠ (read [b, a, b]).2.findings := by decide +kernel
  obtain ⟨count, hcount⟩ := hanswer
  have hmemory : ∀ rules, listingOptions.lookup = .ok rules →
      Build.start.memory.Coherent rules disk :=
    fun rules _ => Lookup.Memory.empty.coherent_forget
  have hfiles : ∀ p, p ∈ [a, b] ↔ p ∈ [b, a, b] := by simp [or_comm]
  have hread : outcome (readModules listingOptions disk [a, b]) Build.start =
      (.ok count, (read [a, b]).2) := Prod.ext hcount rfl
  obtain ⟨count', b₂, hother, hsame, -⟩ := readModules_order hmemory hfiles hread
  obtain rfl : (read [b, a, b]).2 = b₂ := congrArg Prod.snd hother
  exact ⟨⟨count, hcount⟩, hdiffer, hsame⟩

end Order

end Build

end RouteAssets
