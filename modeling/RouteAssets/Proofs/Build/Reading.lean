import RouteAssets.Proofs.Build.Denotation
import RouteAssets.Proofs.Build.Edges
import RouteAssets.Proofs.Build.Resolving

/-!
# What reading a project comes to

What each reader of a build denotes on an unchanging disk, and when it fails.

* **Routes** (`denotes_readRoutes`, `fails_readRoutes`), **registrations**
  (`denotes_readRegistrations`), **listed usages** (`denotes_readUsages`, `fails_readUsages`) and
  **sources** (`denotes_discover`, `fails_discover`).
* **Modules** (`denotes_openModule`, `denotes_finishModule`): the static imports of a module, then
  its dynamic imports and the dependencies it requests.
-/

namespace RouteAssets.Build

open RouteAssets.Imports RouteAssets.Lookup RouteAssets.Script RouteAssets.Text

/-! ## Settings -/

/-- The values of the options that may be misfits, where none of them is one. -/
structure Settings (o : Options) where
  rules : Rules
  registrationNames : List String
  usageName? : Option String
  vocabulary : Usage.Vocabulary
  patterns : List String
  lookup_eq : o.lookup = .ok rules
  registrationFiles_eq : o.registrationFiles = registrationNames.map .ok
  usageFile_eq : o.usageFile = .ok usageName?
  vocabulary_eq : o.vocabulary = .ok vocabulary
  chunkPatterns_eq : o.chunkPatterns = .ok patterns

variable {o : Options} (s : Settings o) (d : Disk)

/-- What a specifier comes to for an importer in the project. -/
def Settings.answer : String → ModuleId → Answer := s.rules.answer d

section Answers

variable {ε α : Type} {p : α → Prop} [DecidablePred p]

instance (answer : Except ε α) : Decidable (∃ a, answer = .ok a ∧ p a) :=
  match answer with
  | .ok a => decidable_of_iff (p a) (by simp)
  | .error _ => isFalse (by simp)

instance (answer : Except ε α) : Decidable (∃ a, answer = .ok a) :=
  match answer with
  | .ok a => isTrue ⟨a, rfl⟩
  | .error _ => isFalse (by simp)

instance (answer : Except ε α) : Decidable (∀ a, answer = .ok a → p a) :=
  match answer with
  | .ok a => decidable_of_iff (p a) (by simp)
  | .error _ => isTrue (by simp)

instance (answer? : Option α) : Decidable (∀ a, answer? = some a → p a) :=
  match answer? with
  | some a => decidable_of_iff (p a) (by simp)
  | none => isTrue (by simp)

end Answers

section Parts

variable {α : Type} {r : Rules} {d : Disk}

/-- The value of an option. -/
lemma denotes_demand (a : α) : Denotes r d (demand (.ok a)) (.ok a) id := denotes_pure a

/-- The answer of a disk, or its failure. -/
lemma denotes_onDisk (answer : Except DiskError α) :
    Denotes r d (onDisk answer) (answer.mapError .disk) id := by
  cases answer with
  | ok a => exact denotes_pure a
  | error e => exact denotes_throw _

/-- Filtering by answers of a disk. -/
lemma denotes_filterM {f : α → BuildStep Bool} {g : α → Except DiskError Bool}
    (h : ∀ x, Denotes r d (f x) ((g x).mapError .disk) id) (xs : List α) :
    Denotes r d (xs.filterM f) ((xs.filterM g).mapError .disk) id := by
  have haux : ∀ acc, Denotes r d (List.filterAuxM f xs acc)
      ((List.filterAuxM g xs acc).mapError .disk) id := by
    induction xs with
    | nil => exact fun acc => denotes_pure acc
    | cons x xs ih =>
      intro acc
      have hx := h x
      simp only [List.filterAuxM]
      cases hg : g x with
      | error e =>
        rw [hg] at hx
        exact hx.bind_error _
      | ok b =>
        rw [hg] at hx
        exact hx.bind_id (ih _)
  have hxs := haux []
  unfold List.filterM
  cases hg : List.filterAuxM g xs [] with
  | error e =>
    rw [hg] at hxs
    exact hxs.bind_error _
  | ok ys =>
    rw [hg] at hxs
    exact hxs.bind_id (denotes_pure _)

/-- Taking in static imports. -/
lemma denotes_addStatic (m : ModuleId) (targets : List ModuleId) :
    Denotes r d (record (·.addStatic m targets)) (.ok ()) (withStatic m targets) :=
  denotes_change (withStatic m targets) fun _ => rfl

/-- Taking in dynamic imports. -/
lemma denotes_addDynamic (m : ModuleId) (targets : List ModuleId) :
    Denotes r d (record (·.addDynamic m targets)) (.ok ()) (withDynamic m targets) :=
  denotes_change (withDynamic m targets) fun _ => rfl

/-- Taking in requested dependencies. -/
lemma denotes_addUsages (m : ModuleId) (deps : List DepId) :
    Denotes r d (record (·.addUsages m deps)) (.ok ()) (withUsages m deps) :=
  denotes_change (withUsages m deps) fun _ => rfl

end Parts

/-! ## Routes -/

/-- What reading the router files of a directory comes to. -/
def routesFound (ps : List Path) : Except Route.Endless Route.Extraction :=
  value (Route.extractFiles (Resolver.stateless (s.answer d)) d .empty ps)

/-- The router files are there to be asked for, and no route definition in them goes on for ever. -/
def RoutersEnd (o : Options) : Prop :=
  ∃ ps, Route.routerFiles d (d.resolve o.routerDirectory) = .ok ps ∧
    ∀ p ∈ ps, ∀ source, Source.ofFile d p = .ok source → Route.definitions source ≠ none

instance : Decidable (RoutersEnd d o) :=
  inferInstanceAs (Decidable (∃ _, _ ∧ _))

/-- The routes of all router files are found exactly when each of the files ends. -/
lemma exists_routesFound_iff {ps : List Path} :
    (∃ found, routesFound s d ps = .ok found) ↔
      ∀ p ∈ ps, ∀ source, Source.ofFile d p = .ok source → Route.definitions source ≠ none := by
  rw [routesFound, Route.exists_extractFiles_ok_iff]
  simp only [Route.exists_fileExtraction_ok_iff]

/-- Reading the routes replaces those that were known. -/
lemma denotes_readRoutes {ps : List Path} {found : Route.Extraction}
    (hps : Route.routerFiles d (d.resolve o.routerDirectory) = .ok ps)
    (hfound : routesFound s d ps = .ok found) :
    Denotes s.rules d (readRoutes o d) (.ok found.routes)
      fun f => { f with routes := found.routes, routerImports := found.imports } := by
  have hlook : Settles (Memory.Coherent s.rules d)
      (Route.extractFiles (s.rules.resolver d) d .empty ps) (.ok found) :=
    hfound ▸ Route.mirrors_extractFiles settles_resolver d .empty ps
  unfold readRoutes
  rw [s.lookup_eq, hps]
  refine (denotes_demand _).bind_id ((denotes_onDisk _).bind_id ?_)
  refine (denotes_look hlook).bind_id ?_
  refine (denotes_tell _).bind_id ?_
  have hset : Denotes s.rules d (record (·.setRoutes found.routes found.imports)) (.ok ())
      fun f => { f with routes := found.routes, routerImports := found.imports } :=
    denotes_change _ fun _ => rfl
  exact hset.then_pure found.routes

/-- Without routes to be found reading them changes nothing. -/
lemma denotes_readRoutes_error (h : ¬ RoutersEnd d o) :
    ∃ e, Denotes s.rules d (readRoutes o d) (.error e) id := by
  unfold readRoutes
  rw [s.lookup_eq]
  cases hps : Route.routerFiles d (d.resolve o.routerDirectory) with
  | error e =>
    exact ⟨.disk e, (denotes_demand _).bind_id ((denotes_throw _).bind_error _)⟩
  | ok ps =>
    cases hfound : routesFound s d ps with
    | ok found => exact absurd ⟨ps, hps, (exists_routesFound_iff s d).1 ⟨found, hfound⟩⟩ h
    | error e =>
      have hlook : Settles (Memory.Coherent s.rules d)
          (Route.extractFiles (s.rules.resolver d) d .empty ps) (.error e) :=
        hfound ▸ Route.mirrors_extractFiles settles_resolver d .empty ps
      refine ⟨.endlessRoutes, (denotes_demand _).bind_id ((denotes_onDisk (.ok ps)).bind_id ?_)⟩
      exact (denotes_look hlook).bind_id ((denotes_tell _).bind_id (denotes_throw _))

/-- Without routes to be found there is no build. -/
lemma fails_readRoutes (h : ¬ RoutersEnd d o) : Fails s.rules d (readRoutes o d) := by
  obtain ⟨e, he⟩ := denotes_readRoutes_error s d h
  exact he.fails

/-! ## Registrations -/

/-- The registration files that the project names. -/
def registrationFiles : List Registration.File :=
  s.registrationNames.map (Registration.File.ofDisk d o.root)

/-- What dependencies stand for according to the registration files that can be read. -/
def lazyModulesFound : Table DepId ModuleId :=
  ((registrationFiles s d).filter (·.code.isSome)).foldl (Registration.fileModules (s.answer d))
    Table.empty

/-- Reading the registrations never fails, and replaces what dependencies stand for. -/
lemma denotes_readRegistrations :
    Denotes s.rules d (readRegistrations o d) (.ok (lazyModulesFound s d).size)
      fun f => { f with lazyModules := lazyModulesFound s d } := by
  have hnames : Denotes s.rules d (o.registrationFiles.mapM demand) (.ok s.registrationNames)
      id := by
    rw [s.registrationFiles_eq, List.mapM_map]
    have hall : Denotes s.rules d (s.registrationNames.mapM fun name => demand (.ok name))
        (.ok (s.registrationNames.map id)) id := denotes_mapM_id fun name _ => denotes_demand name
    rwa [List.map_id] at hall
  have hlook : Settles (Memory.Coherent s.rules d)
      (Registration.collect (s.rules.resolver d) (registrationFiles s d))
      (value (Registration.collect (Resolver.stateless (s.answer d)) (registrationFiles s d))) :=
    Registration.mirrors_collect settles_resolver _
  have hmodules : (value (Registration.collect (Resolver.stateless (s.answer d))
      (registrationFiles s d))).modules = lazyModulesFound s d := by
    rw [Registration.modules_collect, lazyModulesFound, Registration.foldl_fileModules_filter]
  have hset : Denotes s.rules d (record (·.setLazyModules (lazyModulesFound s d))) (.ok ())
      fun f => { f with lazyModules := lazyModulesFound s d } :=
    denotes_change _ fun _ => rfl
  unfold readRegistrations
  rw [s.lookup_eq]
  refine (denotes_demand _).bind_id (hnames.bind_id ((denotes_look hlook).bind_id ?_))
  rw [hmodules]
  exact (denotes_tell _).bind_id (hset.then_pure (lazyModulesFound s d).size)

/-! ## Listed usages -/

/-- The usages that the project lists, none where it names no listing. -/
def usagesListed : Except Usage.ListingError Usage.ByModule :=
  match s.usageName? with
  | none => .ok Table.empty
  | some name => (Usage.load d (o.root.joinText name)).map Prod.fst

/-- The edges of listed usages. -/
def listedEdges (o : Options) (usages : Usage.ByModule) : Edges :=
  Edges.ofAll usages.entries fun e =>
    { Edges.none with usage := fun m x => Chunk.describedModule o.root e.1 = m ∧ x ∈ e.2 }

/-- Reading the listed usages adds their edges. -/
lemma denotes_readUsages {usages : Usage.ByModule} (h : usagesListed s d = .ok usages) :
    ∃ c, Denotes s.rules d (readUsages o d) (.ok ()) c ∧ Adds c (listedEdges o usages) := by
  unfold readUsages
  rw [s.usageFile_eq]
  cases hname : s.usageName? with
  | none =>
    rw [usagesListed, hname] at h
    cases h
    refine ⟨id, (denotes_demand _).bind_id (denotes_pure ()), adds_id.congr ?_ ?_ ?_⟩ <;>
      simp [listedEdges, Edges.ofAll, Edges.none, Table.empty]
  | some name =>
    rw [usagesListed, hname] at h
    dsimp only at h
    cases hload : Usage.load d (o.root.joinText name) with
    | error e => rw [hload] at h; cases h
    | ok loaded =>
      rw [hload] at h
      cases h
      refine ⟨_, (denotes_demand _).bind_id ?_, adds_foldl fun e _ => adds_withUsages _ e.2⟩
      simp only [hload]
      exact (denotes_tell _).bind_id (denotes_forM fun e _ => denotes_addUsages _ e.2)

/-- The listing that the project names, if it names one, cannot be read. -/
def ListingBreaks (o : Options) (d : Disk) : Prop :=
  (∃ x, o.usageFile = .error x) ∨
    ∃ name e, o.usageFile = .ok (some name) ∧ Usage.load d (o.root.joinText name) = .error e

/-- A listing that cannot be read changes nothing. -/
lemma denotes_readUsages_error {r : Rules} {d : Disk} (h : ListingBreaks o d) :
    ∃ e, Denotes r d (readUsages o d) (.error e) id := by
  unfold readUsages
  rcases h with ⟨x, hx⟩ | ⟨name, e, hname, hload⟩
  · rw [hx]
    exact ⟨.misfit x, (denotes_throw _).bind_error _⟩
  · rw [hname]
    refine ⟨.listing e, (denotes_demand _).bind_id ?_⟩
    simp only [hload]
    exact denotes_throw _

/-- Where no usages are listed the listing cannot be read. -/
lemma listingBreaks_of_usagesListed {e : Usage.ListingError} (h : usagesListed s d = .error e) :
    ListingBreaks o d := by
  unfold usagesListed at h
  split at h
  · cases h
  · rename_i name hname
    cases hload : Usage.load d (o.root.joinText name) with
    | error e' => exact Or.inr ⟨name, e', s.usageFile_eq.trans (congrArg Except.ok hname), hload⟩
    | ok loaded =>
      rw [hload] at h
      cases h

/-- Without a listing that can be read there is no build. -/
lemma fails_readUsages {e : Usage.ListingError} (h : usagesListed s d = .error e) :
    Fails s.rules d (readUsages o d) := by
  obtain ⟨x, hx⟩ := denotes_readUsages_error (r := s.rules) (listingBreaks_of_usagesListed s d h)
  exact hx.fails

/-! ## Sources -/

/-- Is a path the one of a source that is there? -/
def isSourceFile (o : Options) (d : Disk) (p : Path) : Except DiskError Bool :=
  (d.isFile p).map (· && isSource p (p.names.drop o.sourceDirectory.names.length))

/-- The paths of the sources of an application, in order. -/
def sourceFiles (o : Options) (d : Disk) : Except DiskError (List Path) :=
  match d.isDirectory o.sourceDirectory with
  | .error e => .error e
  | .ok false => .ok []
  | .ok true => (d.descendants o.sourceDirectory).filterM (isSourceFile o d)

/-- Discovering the sources changes nothing. -/
lemma denotes_discover :
    Denotes s.rules d (discover o d) ((sourceFiles o d).mapError .disk) id := by
  have hfilter : ∀ p, Denotes s.rules d
      (do return (← onDisk (d.isFile p)) && isSource p (p.names.drop o.sourceDirectory.names.length))
      ((isSourceFile o d p).mapError .disk) id := by
    intro p
    unfold isSourceFile
    cases d.isFile p with
    | error e => exact (denotes_onDisk (.error e)).bind_error _
    | ok isFile =>
      exact (denotes_onDisk (.ok isFile)).bind_pure
        (· && isSource p (p.names.drop o.sourceDirectory.names.length))
  have hfiles := denotes_filterM hfilter (d.descendants o.sourceDirectory)
  unfold discover sourceFiles
  dsimp only
  cases d.isDirectory o.sourceDirectory with
  | error e => exact (denotes_onDisk (.error e)).bind_error _
  | ok isThere =>
    refine (denotes_onDisk (.ok isThere)).bind_id ?_
    cases isThere with
    | false => exact (denotes_tell _).bind_id (denotes_pure [])
    | true =>
      dsimp only
      rw [if_pos rfl]
      cases hg : (d.descendants o.sourceDirectory).filterM (isSourceFile o d) with
      | error e =>
        rw [hg] at hfiles
        exact hfiles.bind_error _
      | ok files =>
        rw [hg] at hfiles
        exact hfiles.bind_id ((denotes_tell _).then_pure files)

end RouteAssets.Build
