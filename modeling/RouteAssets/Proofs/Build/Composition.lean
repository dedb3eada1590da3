import RouteAssets.Build.Event
import RouteAssets.Build.Generation
import RouteAssets.Proofs.Build.Outcome

/-!
# What steps inherit from their parts

A property of steps **composes** (`Composes`) when it holds of answers, failures, notices, look-ups
and questions about the findings, and passes on to attempts and to steps after each other. It then
holds of generating the route map (`Composes.generate`). If it holds as well of the changes that add
edges (`Collects`), it holds of reading a module (`Collects.readModule`) or several
(`Collects.readModules`). If it holds of the changes that replace the routes and what dependencies
stand for, too (`Begins`), it holds of the beginning of a build (`Begins.begin`) and of reading what
an event touches (`Begins.readChange`).

So whatever all steps have in common is shown for the few parts that there are, and the readers are
taken apart in this module only.
-/

namespace RouteAssets.Build

open RouteAssets.Imports RouteAssets.Script

/-- A property of steps that is passed on from the parts of a step to the step, as long as the
findings stay as they are. -/
structure Composes (P : ∀ α : Type, BuildStep α → Prop) : Prop where
  on_pure : ∀ {α : Type} (a : α), P α (pure a)
  on_throw : ∀ {α : Type} (e : BuildFault), P α (throw e)
  on_bind : ∀ {α β : Type} {step : BuildStep α} {next : α → BuildStep β}, P α step →
    (∀ a, P β (next a)) → P β (step >>= next)
  on_attempt : ∀ {α : Type} {step : BuildStep α}, P α step → P _ (attempt step)
  on_tell : ∀ ns : List Notice, P _ (tell ns)
  on_look : ∀ {α : Type} (question : StateM Lookup.Memory α), P α (look question)
  on_findings : ∀ {α : Type} {next : Build → BuildStep α},
    (∀ b b', b.findings = b'.findings → next b = next b') → (∀ b, P α (next b)) →
    P α (get >>= next)

/-- The property holds as well of the changes that add edges. -/
structure Collects (P : ∀ α : Type, BuildStep α → Prop) : Prop extends Composes P where
  on_addStatic : ∀ m targets, P _ (record (·.addStatic m targets))
  on_addDynamic : ∀ m targets, P _ (record (·.addDynamic m targets))
  on_addUsages : ∀ m deps, P _ (record (·.addUsages m deps))

/-- The property holds as well of the changes that replace the routes and what dependencies stand
for. -/
structure Begins (P : ∀ α : Type, BuildStep α → Prop) : Prop extends Collects P where
  on_setRoutes : ∀ routes imports, P _ (record (·.setRoutes routes imports))
  on_setLazyModules : ∀ modules, P _ (record (·.setLazyModules modules))

variable {P : ∀ α : Type, BuildStep α → Prop} {α β : Type}

/-! ## Parts of steps -/

section Parts

/-- The property holds of asking for an option. -/
lemma Composes.demand (h : Composes P) (field : Field α) : P α (demand field) := by
  cases field with
  | ok a => exact h.on_pure a
  | error m => exact h.on_throw (.misfit m)

/-- The property holds of asking the disk. -/
lemma Composes.onDisk (h : Composes P) (answer : Except DiskError α) : P α (onDisk answer) := by
  cases answer with
  | ok a => exact h.on_pure a
  | error e => exact h.on_throw (.disk e)

/-- The property holds of settling a result. -/
lemma Composes.settle (h : Composes P) (result : Except BuildFault α) : P α (settle result) := by
  cases result with
  | ok a => exact h.on_pure a
  | error e => exact h.on_throw e

/-- The property holds of steps for the items of a list. -/
lemma Composes.mapM (h : Composes P) {f : α → BuildStep β} (hf : ∀ x, P β (f x)) (xs : List α) :
    P _ (xs.mapM f) := by
  induction xs with
  | nil => exact h.on_pure []
  | cons x xs ih =>
    rw [List.mapM_cons]
    apply h.on_bind (hf x)
    intro y
    apply h.on_bind ih
    intro ys
    exact h.on_pure (y :: ys)

/-- The property holds of steps for the items of a list, without answers. -/
lemma Composes.forM (h : Composes P) {f : α → BuildStep PUnit} (hf : ∀ x, P _ (f x))
    (xs : List α) : P _ (xs.forM f) := by
  induction xs with
  | nil => exact h.on_pure _
  | cons x xs ih => exact h.on_bind (hf x) fun _ => ih

/-- The property holds of filtering a list by the answers of steps. -/
lemma Composes.filterM (h : Composes P) {f : α → BuildStep Bool} (hf : ∀ x, P _ (f x))
    (xs : List α) : P _ (xs.filterM f) := by
  have haux : ∀ acc, P _ (List.filterAuxM f xs acc) := by
    induction xs with
    | nil => exact fun acc => h.on_pure acc
    | cons x xs ih =>
      intro acc
      exact h.on_bind (hf x) fun _ => ih _
  exact h.on_bind (haux []) fun ys => h.on_pure ys.reverse

/-- The property holds of asking whether one of the items of a list is of a kind. -/
lemma Composes.anyM (h : Composes P) {f : α → BuildStep Bool} (hf : ∀ x, P _ (f x))
    (xs : List α) : P _ (xs.anyM f) := by
  induction xs with
  | nil => exact h.on_pure false
  | cons x xs ih =>
    apply h.on_bind (hf x)
    intro found
    cases found with
    | true => exact h.on_pure true
    | false => exact ih

end Parts

/-! ## The route map -/

/-- The property holds of generating the route map. -/
lemma Composes.generate (h : Composes P) (o : Options) (cs : List (Chunk Json)) :
    P _ (generate o cs) := by
  unfold Build.generate
  apply h.on_findings
  · intro b b' hfindings
    rw [hfindings]
  intro b
  apply h.on_bind (h.on_tell _)
  intro _
  apply h.on_bind (h.demand _)
  intro files
  have hlast : ∀ files : RouteMap, P RouteMap (do
      tell [.mapGenerated files.size]
      return files) := by
    intro files
    exact h.on_bind (h.on_tell _) fun _ => h.on_pure files
  have hselect : ∀ files : RouteMap, P RouteMap (do
      let patterns ← Build.demand o.chunkPatterns
      let files ←
        if patterns.isEmpty then pure files
        else do
          tell (Chunk.selectionNotices cs patterns)
          pure (Chunk.addSelected files cs patterns)
      tell [.mapGenerated files.size]
      return files) := by
    intro files
    apply h.on_bind (h.demand _)
    intro patterns
    dsimp only
    split
    · exact h.on_bind (h.on_pure files) hlast
    · exact h.on_bind (h.on_tell _) fun _ => h.on_bind (h.on_pure _) hlast
  dsimp only
  split
  · exact h.on_bind (h.on_tell _) fun _ => h.on_bind (h.on_pure _) hselect
  · exact h.on_bind (h.on_pure files) hselect

/-! ## Modules -/

section Modules

variable (o : Options) (d : Disk)

/-- The property holds of discovering the sources. -/
lemma Composes.discover (h : Composes P) : P _ (discover o d) := by
  unfold Build.discover
  apply h.on_bind (h.onDisk _)
  intro isThere
  split
  · apply h.on_bind
    · apply h.filterM
      intro p
      exact h.on_bind (h.onDisk _) fun isFile => h.on_pure _
    · intro files
      exact h.on_bind (h.on_tell _) fun _ => h.on_pure files
  · exact h.on_bind (h.on_tell _) fun _ => h.on_pure []

/-- The property holds of looking up static imports. -/
lemma Composes.staticTargets (h : Composes P) (rules : Lookup.Rules) (m : ModuleId)
    (specifiers : List String) : P _ (staticTargets rules d m specifiers) := by
  induction specifiers with
  | nil => exact h.on_pure []
  | cons x specifiers ih =>
    unfold Build.staticTargets
    apply h.on_bind (h.on_look _)
    intro result
    cases result with
    | error e => exact h.on_throw (.lookup e)
    | ok answer =>
      apply h.on_bind ih
      intro rest
      split <;> exact h.on_pure _

/-- The property holds of the first part of reading a module. -/
lemma Collects.openModule (h : Collects P) (p : Path) : P _ (openModule o d p) := by
  unfold Build.openModule
  dsimp only
  split
  · exact h.on_pure none
  · apply h.on_bind (h.onDisk _)
    intro source
    split
    · exact h.on_bind (h.on_tell _) fun _ => h.on_pure none
    · apply h.on_bind (h.demand _)
      intro rules
      apply h.on_bind (h.toComposes.staticTargets d rules _ _)
      intro targets
      exact h.on_bind (h.on_addStatic _ targets) fun _ => h.on_pure _

/-- The property holds of the second part of reading a module. -/
lemma Collects.finishModule (h : Collects P) (m : Opened) : P _ (finishModule o d m) := by
  unfold Build.finishModule
  apply h.on_bind (h.demand _)
  intro rules
  apply h.on_bind (h.on_look _)
  rintro ⟨targets, notices⟩
  apply h.on_bind (h.on_tell notices)
  intro _
  have husages : P Unit (do
      let deps := Usage.collect m.source (← Build.demand o.vocabulary)
      unless deps.isEmpty do record (·.addUsages m.module deps)) := by
    apply h.on_bind (h.demand _)
    intro vocabulary
    dsimp only
    split
    · exact h.on_pure ()
    · exact h.on_addUsages _ _
  dsimp only
  split
  · exact husages
  · exact h.on_bind (h.on_addDynamic _ _) fun _ => husages

/-- The property holds of reading a module. -/
lemma Collects.readModule (h : Collects P) (p : Path) : P _ (readModule o d p) := by
  unfold Build.readModule
  apply h.on_bind (h.openModule o d p)
  intro opened
  cases opened with
  | none => exact h.on_pure false
  | some m => exact h.on_bind (h.finishModule o d m) fun _ => h.on_pure true

/-- The property holds of reading the module that a change leads to. -/
lemma Collects.readCurrent (h : Collects P) (e : FileEvent) : P _ (readCurrent o d e) := by
  unfold Build.readCurrent
  split
  · apply h.on_bind (h.onDisk _)
    intro isThere
    split
    · exact h.on_bind (h.readModule o d e.current) fun _ => h.on_pure _
    · exact h.on_pure ()
  · exact h.on_pure ()

/-- The property holds of reading several modules, if it holds of closing the findings. -/
lemma Collects.readModules (h : Collects P) (hclose : P _ (modifyFindings Findings.close))
    (files : List Path) : P _ (readModules o d files) := by
  unfold Build.readModules
  apply h.on_bind (h.mapM (fun p => h.on_attempt (h.openModule o d p)) files)
  intro opened
  apply h.on_bind
  · apply h.mapM
    intro result
    split
    · exact h.on_attempt (h.finishModule o d _)
    · exact h.on_pure _
  intro finished
  apply h.on_bind (h.mapM h.settle opened)
  intro modules
  apply h.on_bind (h.forM h.settle finished)
  intro _
  apply h.on_bind hclose
  intro _
  exact h.on_bind (h.on_tell _) fun _ => h.on_pure _

end Modules

/-! ## Beginnings and changes -/

section Beginnings

variable (o : Options) (d : Disk)

/-- The property holds of reading the routes. -/
lemma Begins.readRoutes (h : Begins P) : P _ (readRoutes o d) := by
  unfold Build.readRoutes
  apply h.on_bind (h.demand _)
  intro rules
  apply h.on_bind (h.onDisk _)
  intro files
  apply h.on_bind (h.on_look _)
  intro result
  cases result with
  | error e => exact h.on_bind (h.on_tell e.notices) fun _ => h.on_throw .endlessRoutes
  | ok found =>
    apply h.on_bind (h.on_tell found.notices)
    intro _
    exact h.on_bind (h.on_setRoutes _ _) fun _ => h.on_pure found.routes

/-- The property holds of reading the registrations. -/
lemma Begins.readRegistrations (h : Begins P) : P _ (readRegistrations o d) := by
  unfold Build.readRegistrations
  apply h.on_bind (h.demand _)
  intro rules
  apply h.on_bind (h.mapM h.demand _)
  intro names
  apply h.on_bind (h.on_look _)
  intro found
  apply h.on_bind (h.on_tell found.notices)
  intro _
  exact h.on_bind (h.on_setLazyModules _) fun _ => h.on_pure _

/-- The property holds of reading the listed usages. -/
lemma Collects.readUsages (h : Collects P) : P _ (readUsages o d) := by
  unfold Build.readUsages
  apply h.on_bind (h.demand _)
  intro name?
  cases name? with
  | none => exact h.on_pure ()
  | some name =>
    dsimp only
    split
    · exact h.on_throw _
    · apply h.on_bind (h.on_tell _)
      intro _
      apply h.forM
      intro e
      exact h.on_addUsages _ e.2

/-- The property holds of the beginning of a build. -/
lemma Begins.begin (h : Begins P) : P _ (begin o d) := by
  unfold Build.begin
  apply h.on_bind (h.readRoutes o d)
  intro routes
  apply h.on_bind (h.readRegistrations o d)
  intro lazyCount
  exact h.on_bind (h.toCollects.readUsages o d) fun _ => h.on_tell _

/-- The property holds of asking whether a path is one of an entry file. -/
lemma Composes.isEntryFile (h : Composes P) (p : Path) : P _ (isEntryFile o d p) := by
  unfold Build.isEntryFile
  split
  · exact h.on_pure true
  · exact h.demand _

/-- The property holds of reading what a change touches. -/
lemma Begins.readChange (h : Begins P) (e : FileEvent) : P _ (readChange o d e) := by
  unfold Build.readChange
  apply h.on_bind (h.anyM (h.toComposes.isEntryFile o d) _)
  intro isEntry
  split
  · exact h.begin o d
  · exact h.toCollects.readCurrent o d e

end Beginnings

end RouteAssets.Build
