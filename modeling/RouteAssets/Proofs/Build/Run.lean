import RouteAssets.Proofs.Build.Modules
import RouteAssets.Proofs.Build.RouteMap

/-!
# What a full run comes to

A full run forgets everything and reads the project from scratch, so what it comes to depends on the
options, the disk and the chunks alone.

* **When it answers** (`Runs`): router files that cannot be asked for or never end, a listing that is
  no text, sources that cannot be listed, and a static import that breaks the look-up can break it
  off. A script that cannot be read and a specifier of any other kind cannot.
* **What it has found** (`HasFound`): what can be read, and nothing else. A file without a tree and
  a specifier without a module leave no trace.
* **Both together** (`run_answers_iff`), for a project that runs and two that do not
  (`run_answers_iff_of_listing`).
-/

namespace RouteAssets.Build

open RouteAssets.Imports RouteAssets.Lookup RouteAssets.Script RouteAssets.Text

variable {o : Options} (s : Settings o) (d : Disk)

/-- What a full run needs. The router files can be asked for and each of their definitions ends; the
listing of usages, if there is one, is a text without endless numbers at a path that can be named;
the sources can be listed; and no static import of a source breaks the look-up. -/
structure Runs : Prop where
  routers : RoutersEnd d o
  listing : ∃ usages, usagesListed s d = .ok usages
  sources : ∃ files, sourceFiles o d = .ok files ∧ ∀ p ∈ files, Opens s d p

instance : Decidable (Runs s d) :=
  decidable_of_iff (RoutersEnd d o ∧ (∃ usages, usagesListed s d = .ok usages) ∧
      ∃ files, sourceFiles o d = .ok files ∧ ∀ p ∈ files, Opens s d p)
    ⟨fun ⟨h, h', h''⟩ => ⟨h, h', h''⟩, fun ⟨h, h', h''⟩ => ⟨h, h', h''⟩⟩

/-- Does a path hold a script that can be read as a tree? -/
def hasTree (p : Path) : Bool :=
  match Source.ofFile d p with
  | .ok source => source.root?.isSome
  | .error _ => false

/-- What a run has found in router files, registration files, listed usages and sources: what those
of them contribute that can be read. -/
structure HasFound (routers sources : List Path) (usages : Usage.ByModule) (f : Findings) : Prop where
  routes_eq : f.routes =
    (routers.filter (hasTree d)).flatMap fun p => (Route.extractionAt (s.answer d) d p).routes
  routerImports_eq : f.routerImports = (routers.filter (hasTree d)).foldl
    (fun table p => table.merge (Route.extractionAt (s.answer d) d p).imports) Table.empty
  lazyModules_eq : f.lazyModules = lazyModulesFound s d
  static_iff : ∀ m t, t ∈ f.static.getD m [] ↔
    ∃ n ∈ sources.filterMap (opened? d), (moduleEdges s d n).static m t
  dynamic_iff : ∀ m t, t ∈ f.dynamic.getD m [] ↔
    ∃ n ∈ sources.filterMap (opened? d), (moduleEdges s d n).dynamic m t
  usage_iff : ∀ m x, x ∈ f.usages.getD m [] ↔ (listedEdges o usages).usage m x ∨
    ∃ n ∈ sources.filterMap (opened? d), (moduleEdges s d n).usage m x

/-! ## The beginning -/

section Begin

variable {s d}

/-- A path without a tree adds neither routes nor imports. -/
lemma extractionAt_of_not_hasTree (answer : String → ModuleId → Answer) {p : Path}
    (h : ¬ hasTree d p) : (Route.extractionAt answer d p).routes = [] ∧
      (Route.extractionAt answer d p).imports = Table.empty := by
  refine Route.extractionAt_of_unread fun source hsource => ?_
  simpa [hasTree, hsource] using h

/-- Router files without a tree can be left out. -/
lemma extractions_filter_hasTree (answer : String → ModuleId → Answer) (ps : List Path)
    (table : Table String ModuleId) :
    (ps.filter (hasTree d)).flatMap (fun p => (Route.extractionAt answer d p).routes) =
        ps.flatMap (fun p => (Route.extractionAt answer d p).routes) ∧
      (ps.filter (hasTree d)).foldl
          (fun table p => table.merge (Route.extractionAt answer d p).imports) table =
        ps.foldl (fun table p => table.merge (Route.extractionAt answer d p).imports) table := by
  induction ps generalizing table with
  | nil => exact ⟨rfl, rfl⟩
  | cons p ps ih =>
    obtain ⟨hroutes, himports⟩ := ih (table.merge (Route.extractionAt answer d p).imports)
    rw [List.filter_cons, List.flatMap_cons, List.foldl_cons, ← himports, ← hroutes]
    split
    · exact ⟨rfl, rfl⟩
    · rename_i h
      obtain ⟨hnone, hempty⟩ := extractionAt_of_not_hasTree answer h
      rw [hnone, hempty]
      exact ⟨rfl, rfl⟩

/-- The beginning of a run replaces the routes and what dependencies stand for, and adds the listed
usages. -/
lemma denotes_begin {ps : List Path} {found : Route.Extraction} {usages : Usage.ByModule}
    (hps : Route.routerFiles d (d.resolve o.routerDirectory) = .ok ps)
    (hfound : routesFound s d ps = .ok found) (husages : usagesListed s d = .ok usages) :
    ∃ c, Denotes s.rules d (begin o d) (.ok ()) (fun f => c { f with
        routes := found.routes, routerImports := found.imports
        lazyModules := lazyModulesFound s d }) ∧
      Adds c (listedEdges o usages) := by
  obtain ⟨c, hc, hadds⟩ := denotes_readUsages s d husages
  refine ⟨c, ?_, hadds⟩
  unfold begin
  refine (denotes_readRoutes s d hps hfound).bind
    (k := fun f => c { f with lazyModules := lazyModulesFound s d }) ?_
  refine (denotes_readRegistrations s d).bind (k := c) ?_
  exact hc.bind (k := id) (denotes_tell _)

/-- Without routes or without the listing there is no beginning. -/
lemma fails_begin (h : ¬ (RoutersEnd d o ∧ ∃ usages, usagesListed s d = .ok usages)) :
    Fails s.rules d (begin o d) := by
  unfold begin
  by_cases hroutes : RoutersEnd d o
  · obtain ⟨ps, hps, hends⟩ := hroutes
    obtain ⟨found, hfound⟩ := (exists_routesFound_iff s d).2 hends
    cases husages : usagesListed s d with
    | ok usages => exact absurd ⟨⟨ps, hps, hends⟩, usages, husages⟩ h
    | error e =>
      refine (denotes_readRoutes s d hps hfound).bind_fails ?_
      exact (denotes_readRegistrations s d).bind_fails ((fails_readUsages s d husages).bind _)
  · exact (fails_readRoutes s d hroutes).bind _

end Begin

/-! ## The run -/

/-- What has been found when modules have been read after the beginning of a run. -/
lemma hasFound_of_changes {c : Findings → Findings} {routers sources : List Path}
    {usages : Usage.ByModule} {f : Findings} (hadds : Adds c (listedEdges o usages))
    (hroutes : f.routes = routers.flatMap fun p => (Route.extractionAt (s.answer d) d p).routes)
    (himports : f.routerImports = routers.foldl
      (fun table p => table.merge (Route.extractionAt (s.answer d) d p).imports) Table.empty)
    (hlazyModules : f.lazyModules = lazyModulesFound s d) (hstatic : f.static = Table.empty)
    (hdynamic : f.dynamic = Table.empty) (husages : f.usages = Table.empty) :
    HasFound s d routers sources usages (modulesChange s d sources (c f)).close := by
  have hboth := hadds.comp (adds_modulesChange s d sources)
  obtain ⟨hroutes', himports'⟩ :=
    extractions_filter_hasTree (d := d) (s.answer d) routers Table.empty
  constructor
  · exact (hboth.routes_eq f).trans (hroutes.trans hroutes'.symm)
  · exact (hboth.routerImports_eq f).trans (himports.trans himports'.symm)
  · exact (hboth.lazyModules_eq f).trans hlazyModules
  · intro m t
    refine (hboth.static_iff f m t).trans ?_
    rw [hstatic]
    simp [Edges.or, Edges.ofAll, listedEdges, Edges.none]
  · intro m t
    refine (hboth.dynamic_iff f m t).trans ?_
    rw [hdynamic]
    simp [Edges.or, Edges.ofAll, listedEdges, Edges.none]
  · intro m x
    refine (hboth.usage_iff f m x).trans ?_
    rw [husages]
    simp [Edges.or, Edges.ofAll]

/-- A build that has forgotten everything is ready. -/
lemma ready_of_forgotten {r : Rules} (b : Build) :
    Ready r d { b with findings := .empty, memory := b.memory.forget } :=
  ⟨b.memory.coherent_forget, rfl⟩

section Steps

variable {d}

/-- A full run that answers has begun, listed the sources, read them, and generated the route map in
the end. -/
lemma exists_steps_of_run {cs : List (Chunk Json)} {files : RouteMap} {b b' : Build}
    (h : outcome (run o d cs) b = (.ok files, b')) :
    ∃ b₁ sources b₂ count b₃,
      outcome (begin o d) { b with findings := .empty, memory := b.memory.forget } = (.ok (), b₁) ∧
      outcome (discover o d) b₁ = (.ok sources, b₂) ∧
      outcome (readModules o d sources) b₂ = (.ok count, b₃) ∧
      outcome (generate o cs) { b₃ with isDirty := false } = (.ok files, b') := by
  unfold run at h
  rw [outcome_bind_ok (outcome_modifyFindings b _), outcome_bind_ok (outcome_forgetLookups _)] at h
  obtain ⟨⟨⟩, b₁, hbegin, h⟩ := exists_of_outcome_bind h
  obtain ⟨sources, b₂, hdiscover, h⟩ := exists_of_outcome_bind h
  obtain ⟨count, b₃, hread, h⟩ := exists_of_outcome_bind h
  rw [outcome_bind_ok (outcome_markDirty b₃ false)] at h
  exact ⟨b₁, sources, b₂, count, b₃, hbegin, hdiscover, hread, h⟩

/-- The steps of a full run, one after the other. -/
lemma outcome_run_of_steps (cs : List (Chunk Json)) {b b₁ b₂ b₃ : Build} {sources : List Path}
    {count : Nat}
    (hbegin : outcome (begin o d) { b with findings := .empty, memory := b.memory.forget } =
      (.ok (), b₁))
    (hdiscover : outcome (discover o d) b₁ = (.ok sources, b₂))
    (hread : outcome (readModules o d sources) b₂ = (.ok count, b₃)) :
    outcome (run o d cs) b = outcome (generate o cs) { b₃ with isDirty := false } := by
  unfold run
  rw [outcome_bind_ok (outcome_modifyFindings b _), outcome_bind_ok (outcome_forgetLookups _),
    outcome_bind_ok hbegin, outcome_bind_ok hdiscover, outcome_bind_ok hread,
    outcome_bind_ok (outcome_markDirty b₃ false)]

end Steps

section Run

variable {s d} (cs : List (Chunk FileName))

/-- A run that has what it needs answers with the files of the routes, after it has found what can
be read. -/
lemma outcome_run (h : Runs s d) (b : Build) :
    ∃ files b' routers sources usages,
      outcome (run o d (cs.map (Chunk.mapStyles Json.string))) b = (.ok files, b') ∧
      Route.routerFiles d (d.resolve o.routerDirectory) = .ok routers ∧
      sourceFiles o d = .ok sources ∧ usagesListed s d = .ok usages ∧
      HasFound s d routers sources usages b'.findings ∧
      files = fullMap o b'.findings cs s.patterns := by
  obtain ⟨routers, hrouters, hends⟩ := h.routers
  obtain ⟨usages, husages⟩ := h.listing
  obtain ⟨sources, hsources, hopens⟩ := h.sources
  obtain ⟨found, hfound⟩ := (exists_routesFound_iff s d).2 hends
  obtain ⟨c, hbegin, hadds⟩ := denotes_begin hrouters hfound husages
  have hdiscover := denotes_discover s d
  rw [hsources] at hdiscover
  obtain ⟨b₁, h₁, hb₁, hf₁⟩ := hbegin _ (ready_of_forgotten d b)
  obtain ⟨b₂, h₂, hb₂, hf₂⟩ := hdiscover b₁ hb₁
  obtain ⟨count, b₃, h₃, hf₃⟩ := outcome_readModules hopens hb₂
  obtain ⟨ns, h₄⟩ := outcome_generate o cs { b₃ with isDirty := false } s.chunkPatterns_eq
  refine ⟨_, { b₃ with isDirty := false, notices := ns }, routers, sources, usages, ?_, hrouters,
    hsources, husages, ?_, rfl⟩
  · exact (outcome_run_of_steps _ h₁ h₂ h₃).trans h₄
  · dsimp only
    rw [hf₃, hf₂, hf₁, id_eq]
    obtain ⟨hroutes, himports⟩ := Route.extractFiles_eq hfound
    exact hasFound_of_changes s d hadds hroutes himports rfl rfl rfl rfl

/-- A run that lacks something fails. -/
lemma outcome_run_error (h : ¬ Runs s d) (b : Build) :
    ∃ e b', outcome (run o d (cs.map (Chunk.mapStyles Json.string))) b = (.error e, b') := by
  unfold run
  rw [outcome_bind_ok (outcome_modifyFindings b _), outcome_bind_ok (outcome_forgetLookups _)]
  suffices hfails : Fails s.rules d (do
      begin o d
      let _ ← readModules o d (← discover o d)
      markDirty false
      generate o (cs.map (Chunk.mapStyles Json.string))) from hfails _ (ready_of_forgotten d b)
  by_cases hbegin : RoutersEnd d o ∧ ∃ usages, usagesListed s d = .ok usages
  · obtain ⟨⟨routers, hrouters, hends⟩, usages, husages⟩ := hbegin
    obtain ⟨found, hfound⟩ := (exists_routesFound_iff s d).2 hends
    obtain ⟨c, hc, -⟩ := denotes_begin hrouters hfound husages
    have hdiscover := denotes_discover s d
    refine hc.bind_fails ?_
    cases hsources : sourceFiles o d with
    | error e =>
      rw [hsources] at hdiscover
      exact hdiscover.fails.bind _
    | ok sources =>
      rw [hsources] at hdiscover
      refine hdiscover.bind_fails (Fails.bind (fails_readModules ?_) _)
      by_contra hnone
      refine h ⟨⟨routers, hrouters, hends⟩, ⟨usages, husages⟩, sources, hsources, fun p hp => ?_⟩
      by_contra hp'
      exact hnone ⟨p, hp, hp'⟩
  · exact (fails_begin hbegin).bind _

end Run

/-- The options of a project that lists its usages and has a setting for nothing else. -/
def listingOptions : Options where
  root := Path.ofString "/app"
  isVerbose := false
  lookup := .ok {
    root := Path.ofString "/app", aliases := [], extensions := standardExtensions,
    packages := some "node_modules" }
  excluded := "node_modules"
  routerDirectory := Path.ofString "/app/src/ui/router"
  sourceDirectory := Path.ofString "/app/src"
  registrationFiles := []
  virtualModule := .ok "virtual:route-deps-map"
  generatedModule := none
  usageFile := .ok (some "deps.json")
  reportsGlobs := true
  vocabulary := .ok .standard
  addsImportedChunks := false
  chunkPatterns := .ok []

end RouteAssets.Build
