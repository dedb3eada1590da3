import RouteAssets.Proofs.Build.Reading

/-!
# What reading modules comes to

A path **opens** (`Opens`) when its file can be named and no static import of its script breaks the
look-up. It then comes to a module (`opened?`) or to none, and a module contributes its edges
(`moduleEdges`).

* **One module** (`denotes_openModule`, `denotes_openModule_of_not_opens`, `denotes_finishModule`):
  static imports first, then dynamic imports and requested dependencies. Only the static imports can
  break off.
* **All modules** (`outcome_readModules`, `fails_readModules`): together they add the edges of those
  that there are, and fail when one of the paths does not open.
-/

namespace RouteAssets.Build

open RouteAssets.Imports RouteAssets.Lookup RouteAssets.Script RouteAssets.Text

variable {o : Options} (s : Settings o) (d : Disk)

/-! ## What a module contributes -/

/-- The file of a path can be named, and no static import of its script breaks the look-up. -/
def Opens (p : Path) : Prop :=
  ModuleId.isCompiled (d.resolve p).toString = true →
    ∃ source, Source.ofFile d (d.resolve p) = .ok source ∧
      ∀ root, source.root? = some root → ∀ x ∈ staticSpecifiers root,
        ∃ answer, s.rules.find d x (directoryOf (d.resolve p).toString) = .ok answer

instance (p : Path) : Decidable (Opens s d p) :=
  inferInstanceAs (Decidable (_ → ∃ _, _ ∧ ∀ _, _ → _))

/-- The module at a path, where there is one whose script has a tree. -/
def opened? (p : Path) : Option Opened :=
  if ModuleId.isCompiled (d.resolve p).toString then
    match Source.ofFile d (d.resolve p) with
    | .ok source => source.root?.map fun _ => { module := (d.resolve p).toString, source }
    | .error _ => none
  else none

/-- What there has to be at a path for a module. -/
lemma exists_source_of_opened {d : Disk} {p : Path} {m : Opened} (h : opened? d p = some m) :
    ModuleId.isCompiled (d.resolve p).toString = true ∧ ∃ source root,
      Source.ofFile d (d.resolve p) = .ok source ∧ source.root? = some root ∧
        m = ⟨(d.resolve p).toString, source⟩ := by
  unfold opened? at h
  split at h
  · rename_i hcompiled
    split at h
    · rename_i source hsource
      obtain ⟨root, hroot, rfl⟩ := Option.map_eq_some_iff.1 h
      exact ⟨hcompiled, source, root, hsource, hroot, rfl⟩
    · cases h
  · cases h

/-- A module that has been opened has a tree. -/
lemma exists_root_of_opened {d : Disk} {p : Path} {m : Opened} (h : opened? d p = some m) :
    ∃ root, m.source.root? = some root := by
  obtain ⟨-, source, root, -, hroot, rfl⟩ := exists_source_of_opened h
  exact ⟨root, hroot⟩

/-- The modules that a module imports statically. -/
def staticModules (m : Opened) : List ModuleId :=
  match m.source.root? with
  | some root => (staticSpecifiers root).filterMap fun x => (s.answer d x m.module).module?
  | none => []

/-- The modules that a module imports dynamically. -/
def dynamicModules (m : Opened) : List ModuleId :=
  (value (collectDynamic (Resolver.stateless (s.answer d)) m.source m.module o.reportsGlobs)).1

/-- What one module contributes: the modules that its specifiers name, and what it requests. A
specifier without a module contributes nothing. -/
def moduleEdges (m : Opened) : Edges where
  static k t := m.module = k ∧ ∃ root, m.source.root? = some root ∧
    ∃ x ∈ staticSpecifiers root, (s.answer d x m.module).module? = some t
  dynamic k t := m.module = k ∧ hasDynamicSyntax m.source.text = true ∧
    ∃ root, m.source.root? = some root ∧ ∃ call ∈ root.preorder, ∃ x,
      call.importSpecifier? = some x ∧ (s.answer d x m.module.withoutQuery).module? = some t
  usage k x := m.module = k ∧ x ∈ Usage.collect m.source s.vocabulary

/-- The first part of reading a module: its static imports. -/
def openChange (m : Opened) : Findings → Findings := withStatic m.module (staticModules s d m)

/-- The second part of reading a module: its dynamic imports and the dependencies it requests. -/
def finishChange (m : Opened) : Findings → Findings :=
  (if (Usage.collect m.source s.vocabulary).isEmpty then id
    else withUsages m.module (Usage.collect m.source s.vocabulary)) ∘
  if (dynamicModules s d m).isEmpty then id else withDynamic m.module (dynamicModules s d m)

/-- The first part adds the static edges. -/
lemma adds_openChange (m : Opened) :
    Adds (openChange s d m) { Edges.none with static := (moduleEdges s d m).static } := by
  refine (adds_withStatic _ _).congr (fun k t => ?_) (fun _ _ => Iff.rfl) fun _ _ => Iff.rfl
  cases hroot : m.source.root? <;> simp [staticModules, moduleEdges, hroot, List.mem_filterMap]

/-- The second part adds the other edges, of a script that has a tree. -/
lemma adds_finishChange {m : Opened} {root : Tree} (hroot : m.source.root? = some root) :
    Adds (finishChange s d m) { moduleEdges s d m with static := Edges.none.static } := by
  have hdynamic : Adds
      (if (dynamicModules s d m).isEmpty then id else withDynamic m.module (dynamicModules s d m))
      { Edges.none with dynamic := fun k t => m.module = k ∧ t ∈ dynamicModules s d m } := by
    split
    · rename_i h
      refine adds_id.congr ?_ ?_ ?_ <;> simp [Edges.none, List.isEmpty_iff.1 h]
    · exact adds_withDynamic _ _
  have husages : Adds
      (if (Usage.collect m.source s.vocabulary).isEmpty then id
        else withUsages m.module (Usage.collect m.source s.vocabulary))
      { Edges.none with usage := (moduleEdges s d m).usage } := by
    split
    · rename_i h
      refine adds_id.congr ?_ ?_ ?_ <;> simp [Edges.none, moduleEdges, List.isEmpty_iff.1 h]
    · exact adds_withUsages _ _
  refine (hdynamic.comp husages).congr ?_ ?_ ?_
  · simp [Edges.or, Edges.none]
  · intro k t
    simp only [Edges.or, Edges.none, or_false, dynamicModules, moduleEdges]
    rw [mem_dynamicImports_iff hroot]
    simp [hroot]
  · simp [Edges.or, Edges.none, moduleEdges]

/-- Both parts together add what the module contributes. -/
lemma openEdges_or_finishEdges (m : Opened) :
    ({ Edges.none with static := (moduleEdges s d m).static } : Edges).or
      { moduleEdges s d m with static := Edges.none.static } = moduleEdges s d m := by
  simp [Edges.or, Edges.none]

/-! ## One module -/

section Module

variable {s d}

/-- Where no static import breaks the look-up, the modules that the specifiers name are found. -/
lemma denotes_staticTargets {r : Rules} {m : ModuleId} {specifiers : List String}
    (h : ∀ x ∈ specifiers, ∃ answer, r.find d x (directoryOf m) = .ok answer) :
    Denotes r d (staticTargets r d m specifiers)
      (.ok (specifiers.filterMap fun x => (r.answer d x m).module?)) id := by
  induction specifiers with
  | nil => exact denotes_pure []
  | cons x specifiers ih =>
    obtain ⟨⟨answer, hx⟩, hrest⟩ := List.forall_mem_cons.1 h
    have hanswer : r.answer d x m = toAnswer (.ok answer) := congrArg toAnswer hx
    have hlook := denotes_look (settles_resolve (r := r) (d := d) x m)
    rw [hx] at hlook
    unfold staticTargets
    refine hlook.bind_id ((ih hrest).bind_id ?_)
    rw [List.filterMap_cons, hanswer]
    cases (toAnswer (.ok answer)).module? with
    | none => exact denotes_pure _
    | some target => exact denotes_pure _

/-- A static import that breaks the look-up fails. -/
lemma denotes_staticTargets_error {r : Rules} {m : ModuleId} {specifiers : List String}
    (h : ∃ x ∈ specifiers, ∃ e, r.find d x (directoryOf m) = .error e) :
    ∃ e, Denotes r d (staticTargets r d m specifiers) (.error e) id := by
  induction specifiers with
  | nil => simp at h
  | cons x specifiers ih =>
    have hlook := denotes_look (settles_resolve (r := r) (d := d) x m)
    unfold staticTargets
    cases hx : r.find d x (directoryOf m) with
    | error e =>
      rw [hx] at hlook
      exact ⟨_, hlook.bind_id (denotes_throw _)⟩
    | ok answer =>
      rw [hx] at hlook
      obtain ⟨y, hy, e, he⟩ := h
      rcases List.mem_cons.1 hy with rfl | hy
      · cases hx.symm.trans he
      · obtain ⟨e', hrest⟩ := ih ⟨y, hy, e, he⟩
        exact ⟨e', hlook.bind_id (hrest.bind_error _)⟩

/-- Opening a path that opens: the module, if there is one, with its static imports. -/
lemma denotes_openModule {p : Path} (h : Opens s d p) :
    Denotes s.rules d (openModule o d p) (.ok (opened? d p))
      ((opened? d p).elim id (openChange s d)) := by
  unfold openModule
  dsimp only
  cases hcompiled : ModuleId.isCompiled (d.resolve p).toString with
  | false =>
    have hnone : opened? d p = none := by simp [opened?, hcompiled]
    rw [hnone]
    exact denotes_pure none
  | true =>
    obtain ⟨source, hsource, hfound⟩ := h hcompiled
    have hmodule : opened? d p = source.root?.map fun _ => ⟨(d.resolve p).toString, source⟩ := by
      simp [opened?, hcompiled, hsource]
    rw [hmodule, hsource]
    refine (denotes_onDisk (.ok source)).bind_id ?_
    cases hroot : source.root? with
    | none => exact (denotes_tell _).then_pure none
    | some root =>
      have htargets : staticModules s d ⟨(d.resolve p).toString, source⟩ =
          (staticSpecifiers root).filterMap fun x =>
            (s.rules.answer d x (d.resolve p).toString).module? := by
        simp only [staticModules, hroot, Settings.answer]
      have hchange : openChange s d ⟨(d.resolve p).toString, source⟩ =
          withStatic (d.resolve p).toString ((staticSpecifiers root).filterMap fun x =>
            (s.rules.answer d x (d.resolve p).toString).module?) := by
        rw [openChange, htargets]
      rw [s.lookup_eq, Option.map_some, Option.elim_some, hchange]
      refine (denotes_demand _).bind_id ((denotes_staticTargets (hfound root hroot)).bind_id ?_)
      exact (denotes_addStatic _ _).then_pure _

/-- A path that does not open breaks off. -/
lemma denotes_openModule_of_not_opens {p : Path} (h : ¬ Opens s d p) :
    ∃ e, Denotes s.rules d (openModule o d p) (.error e) id := by
  unfold Opens at h
  obtain ⟨hcompiled, h⟩ := Classical.not_imp.1 h
  unfold openModule
  dsimp only
  simp only [hcompiled]
  cases hsource : Source.ofFile d (d.resolve p) with
  | error e => exact ⟨_, (denotes_onDisk (.error e)).bind_error _⟩
  | ok source =>
    cases hroot : source.root? with
    | none =>
      refine absurd ⟨source, hsource, fun root hsome => ?_⟩ h
      cases hroot.symm.trans hsome
    | some root =>
      have hfails : ∃ x ∈ staticSpecifiers root, ∃ e,
          s.rules.find d x (directoryOf (d.resolve p).toString) = .error e := by
        by_contra hnone
        refine h ⟨source, hsource, fun root' hroot' x hx => ?_⟩
        cases hroot.symm.trans hroot'
        cases hfind : s.rules.find d x (directoryOf (d.resolve p).toString) with
        | ok answer => exact ⟨answer, rfl⟩
        | error e => exact absurd ⟨x, hx, e, hfind⟩ hnone
      obtain ⟨e, htargets⟩ := denotes_staticTargets_error hfails
      rw [s.lookup_eq]
      refine ⟨e, (denotes_onDisk (.ok source)).bind_id ?_⟩
      simp only [hroot]
      exact (denotes_demand _).bind_id (htargets.bind_error _)

/-- The second part of reading a module never fails. -/
lemma denotes_finishModule (m : Opened) :
    Denotes s.rules d (finishModule o d m) (.ok ()) (finishChange s d m) := by
  have hlook : Settles (Memory.Coherent s.rules d)
      (collectDynamic (s.rules.resolver d) m.source m.module o.reportsGlobs)
      (value (collectDynamic (Resolver.stateless (s.answer d)) m.source m.module o.reportsGlobs)) :=
    mirrors_collectDynamic settles_resolver m.source m.module o.reportsGlobs
  have husages : Denotes s.rules d
      (do
        let deps := Usage.collect m.source (← demand o.vocabulary)
        unless deps.isEmpty do record (·.addUsages m.module deps))
      (.ok ())
      (if (Usage.collect m.source s.vocabulary).isEmpty then id
        else withUsages m.module (Usage.collect m.source s.vocabulary)) := by
    rw [s.vocabulary_eq]
    refine (denotes_demand _).bind_id ?_
    dsimp only
    split
    · exact denotes_pure ()
    · exact denotes_addUsages _ _
  rcases hfound : value (collectDynamic (Resolver.stateless (s.answer d)) m.source m.module
    o.reportsGlobs) with ⟨targets, notices⟩
  have htargets : dynamicModules s d m = targets := by rw [dynamicModules, hfound]
  rw [hfound] at hlook
  unfold finishModule finishChange
  rw [s.lookup_eq, htargets]
  refine (denotes_demand _).bind_id ((denotes_look hlook).bind_id ?_)
  refine (denotes_tell notices).bind_id ?_
  cases targets with
  | nil => exact husages
  | cons target targets =>
    exact (denotes_addDynamic m.module (target :: targets)).bind husages

/-- The second part of reading what came of opening a path: nothing, where there is no module. -/
def finishing (o : Options) (d : Disk) : Except BuildFault (Option Opened) →
    BuildStep (Except BuildFault Unit)
  | .ok (some m) => attempt (finishModule o d m)
  | _ => return .ok ()

/-- What finishing changes. -/
def finishingChange (s : Settings o) (d : Disk) : Except BuildFault (Option Opened) →
    Findings → Findings
  | .ok (some m) => finishChange s d m
  | _ => id

/-- Finishing never fails. -/
lemma denotes_finishing (result : Except BuildFault (Option Opened)) :
    Denotes s.rules d (finishing o d result) (.ok (.ok ())) (finishingChange s d result) := by
  unfold finishing finishingChange
  split
  · exact denotes_attempt (denotes_finishModule _)
  · exact denotes_pure _

end Module

/-! ## All modules -/

/-- Reading modules together changes the findings in two rounds. -/
def modulesChange (files : List Path) : Findings → Findings :=
  (fun f => files.foldl (fun f p => finishingChange s d (.ok (opened? d p)) f) f) ∘
    fun f => files.foldl (fun f p => (opened? d p).elim id (openChange s d) f) f

/-- Both rounds together add what each module contributes. -/
lemma adds_modulesChange (files : List Path) :
    Adds (modulesChange s d files)
      (Edges.ofAll (files.filterMap (opened? d)) (moduleEdges s d)) := by
  have hopen : ∀ p ∈ files, Adds ((opened? d p).elim id (openChange s d))
      ((opened? d p).elim Edges.none fun m =>
        { Edges.none with static := (moduleEdges s d m).static }) := by
    intro p _
    cases opened? d p with
    | none => exact adds_id
    | some m => exact adds_openChange s d m
  have hfinish : ∀ p ∈ files, Adds (finishingChange s d (.ok (opened? d p)))
      ((opened? d p).elim Edges.none fun m =>
        { moduleEdges s d m with static := Edges.none.static }) := by
    intro p _
    cases hm : opened? d p with
    | none => exact adds_id
    | some m =>
      obtain ⟨root, hroot⟩ := exists_root_of_opened hm
      exact adds_finishChange s d hroot
  have hboth := (adds_foldl hopen).comp (adds_foldl hfinish)
  rw [Edges.ofAll_filterMap, Edges.ofAll_filterMap, Edges.ofAll_or_ofAll] at hboth
  simp only [openEdges_or_finishEdges] at hboth
  exact hboth

section Modules

variable {s d}

/-- Paths that all open are read, and the findings are closed. -/
lemma outcome_readModules {files : List Path} (h : ∀ p ∈ files, Opens s d p) {b : Build}
    (hb : Ready s.rules d b) :
    ∃ count b', outcome (readModules o d files) b = (.ok count, b') ∧
      b'.findings = (modulesChange s d files b.findings).close := by
  have hopened : Denotes s.rules d (files.mapM fun p => attempt (openModule o d p))
      (.ok (files.map fun p => .ok (opened? d p))) _ :=
    denotes_mapM fun p hp => denotes_attempt (denotes_openModule (h p hp))
  have hfinished : Denotes s.rules d
      ((files.map fun p => Except.ok (opened? d p)).mapM (finishing o d))
      (.ok ((files.map fun p => Except.ok (opened? d p)).map fun _ => .ok ())) _ :=
    denotes_mapM fun result _ => denotes_finishing result
  have hmodules : Denotes s.rules d
      ((files.map fun p => (Except.ok (opened? d p) : Except BuildFault _)).mapM settle)
      (.ok (files.map (opened? d))) id := by
    rw [List.mapM_map]
    exact denotes_mapM_id fun p _ => denotes_settle _
  have hsettled : Denotes s.rules d
      (((files.map fun p => (Except.ok (opened? d p) : Except BuildFault _)).map
        fun _ => .ok ⟨⟩).forM settle) (.ok ⟨⟩) id := by
    refine denotes_forM_id fun result hresult => ?_
    obtain ⟨_, -, rfl⟩ := List.mem_map.1 hresult
    exact denotes_settle _
  obtain ⟨b₁, h₁, hb₁, hf₁⟩ := hopened b hb
  obtain ⟨b₂, h₂, hb₂, hf₂⟩ := hfinished b₁ hb₁
  obtain ⟨b₃, h₃, hb₃, hf₃⟩ := hmodules b₂ hb₂
  obtain ⟨b₄, h₄, hb₄, hf₄⟩ := hsettled b₃ hb₃
  unfold readModules
  refine ⟨_, _, (outcome_bind_ok h₁).trans ((outcome_bind_ok h₂).trans ((outcome_bind_ok h₃).trans
    ((outcome_bind_ok h₄).trans rfl))), ?_⟩
  change b₄.findings.close = _
  rw [hf₄, hf₃, hf₂, hf₁, List.foldl_map]
  rfl

/-- A path that does not open makes reading fail. -/
lemma fails_readModules {files : List Path} (h : ∃ p ∈ files, ¬ Opens s d p) :
    Fails s.rules d (readModules o d files) := by
  have hresult : ∀ p, ∃ result c, Denotes s.rules d (openModule o d p) result c ∧
      (¬ Opens s d p → ∃ e, result = .error e) := by
    intro p
    by_cases hp : Opens s d p
    · exact ⟨_, _, denotes_openModule hp, fun hnot => absurd hp hnot⟩
    · obtain ⟨e, he⟩ := denotes_openModule_of_not_opens hp
      exact ⟨_, _, he, fun _ => ⟨e, rfl⟩⟩
  choose result c hdenotes herror using hresult
  have hopened : Denotes s.rules d (files.mapM fun p => attempt (openModule o d p))
      (.ok (files.map result)) _ :=
    denotes_mapM fun p _ => denotes_attempt (hdenotes p)
  have hfinished : Denotes s.rules d ((files.map result).mapM (finishing o d))
      (.ok ((files.map result).map fun _ => .ok ())) _ :=
    denotes_mapM fun result _ => denotes_finishing result
  unfold readModules
  refine hopened.bind_fails (hfinished.bind_fails ?_)
  obtain ⟨p, hp, hnot⟩ := h
  obtain ⟨e, he⟩ := herror p hnot
  exact (fails_mapM denotes_settle ⟨_, List.mem_map_of_mem hp, e, he⟩).bind _

end Modules

end RouteAssets.Build
