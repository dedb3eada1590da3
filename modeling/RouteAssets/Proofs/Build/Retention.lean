import RouteAssets.Proofs.Build.Growth

/-!
# What events leave as it is

An event is folded into the findings of a build by a step that may fail (`handle`). Whatever it
comes to, what was known stays known.

* **One event** (`outcome_handle`): unless it is the build's own change, it is read in a build that
  has been opened and has forgotten all answers (`prepared`), and the findings are closed
  afterwards, even where the reading fails. Only a reading that succeeds marks the route map.
* **Entry files** (`ReachesEntry`): without one among the paths that the event touches, neither the
  routes nor what dependencies stand for are looked at.
* **All events** (`handled_retains`): edges are never lost, and everything else changes only for the
  reasons that there are.
-/

namespace RouteAssets.Build

variable {o : Options} {d : Disk} {e : FileEvent}

/-! ## Entry files -/

/-- A path is the one of an entry file: it lies directly in the router directory, or it is one of
the registration files. -/
def IsEntry (o : Options) (d : Disk) (p : Path) : Prop :=
  (d.resolve p).parent = d.resolve o.routerDirectory ∨
    ∃ name, .ok name ∈ o.registrationFiles ∧ d.resolve p = d.resolve (o.root.joinText name)

/-- An event touches an entry file. -/
def ReachesEntry (o : Options) (d : Disk) (e : FileEvent) : Prop := ∃ q ∈ e.touched, IsEntry o d q

/-- A path that is found among some registration files is one of them. -/
lemma exists_of_isRegistration {p : Path} {names : List (Field String)}
    (h : isRegistration o d p names = .ok true) :
    ∃ name, .ok name ∈ names ∧ d.resolve p = d.resolve (o.root.joinText name) := by
  induction names with
  | nil => cases h
  | cons field names ih =>
    cases field with
    | error m => cases h
    | ok name =>
      by_cases hname : d.resolve p = d.resolve (o.root.joinText name)
      · exact ⟨name, List.mem_cons_self, hname⟩
      · have hrest : isRegistration o d p names = .ok true := by
          simpa [isRegistration, hname, bind, Except.bind] using h
        obtain ⟨name', hmem, hname'⟩ := ih hrest
        exact ⟨name', List.mem_cons_of_mem _ hmem, hname'⟩

/-- A path for which the answer is yes is the one of an entry file. -/
lemma isEntry_of_outcome {p : Path} {b b' : Build}
    (h : outcome (isEntryFile o d p) b = (.ok true, b')) : IsEntry o d p := by
  unfold isEntryFile at h
  split at h
  · rename_i hrouter
    exact Or.inl (eq_of_beq hrouter)
  · exact Or.inr (exists_of_isRegistration (eq_ok_of_outcome_demand h))

/-- Among paths for which the answer is yes there is one of an entry file. -/
lemma exists_isEntry_of_outcome_anyM {ps : List Path} {b b' : Build}
    (h : outcome (ps.anyM (isEntryFile o d)) b = (.ok true, b')) : ∃ q ∈ ps, IsEntry o d q := by
  induction ps generalizing b with
  | nil => cases h
  | cons p ps ih =>
    obtain ⟨found, b₁, hfirst, hrest⟩ := exists_of_outcome_bind h
    cases found with
    | true => exact ⟨p, List.mem_cons_self, isEntry_of_outcome hfirst⟩
    | false =>
      obtain ⟨q, hq, hentry⟩ := ih hrest
      exact ⟨q, List.mem_cons_of_mem _ hq, hentry⟩

/-- Where no entry file is touched the findings come from reading the module that the event leads
to, if they change at all. -/
lemma findings_readChange_of_not_reachesEntry (h : ¬ ReachesEntry o d e) (b : Build) :
    (outcome (readChange o d e) b).2.findings = b.findings ∨
      ∃ b', b'.findings = b.findings ∧
        outcome (readChange o d e) b = outcome (readCurrent o d e) b' := by
  have hasked := (composes_leaves.anyM (composes_leaves.isEntryFile o d) e.touched b).1
  unfold readChange
  rcases hany : outcome (e.touched.anyM (isEntryFile o d)) b with ⟨x | found, b₁⟩
  · rw [hany] at hasked
    rw [outcome_bind_error hany]
    exact Or.inl hasked
  · rw [hany] at hasked
    cases found with
    | true => exact absurd (exists_isEntry_of_outcome_anyM hany) h
    | false =>
      rw [outcome_bind_ok hany]
      exact Or.inr ⟨b₁, hasked, rfl⟩

/-! ## One event -/

/-- A build that is about to read an event: it is open and has forgotten all answers. -/
def prepared (e : FileEvent) (b : Build) : Build :=
  { b with
    findings := b.findings.reopen, memory := b.memory.forget, notices := b.notices ++ [e.notice] }

/-- Reading leaves the mark of the route map as it is. -/
lemma isDirty_readChange (o : Options) (d : Disk) (e : FileEvent) (b : Build) :
    (outcome (readChange o d e) b).2.isDirty = b.isDirty := by
  have hrecord : ∀ change, Moves (fun b b' => b'.isDirty = b.isDirty) _
      (record change) := by
    intro change b
    cases hchange : change b.findings with
    | ok f => rw [outcome_record_ok b hchange]
    | error c => rw [outcome_record_error b hchange]
  have hbegins : Begins (Moves fun b b' => b'.isDirty = b.isDirty) :=
    { toComposes := composes_moves (fun _ _ _ hmark => hmark) fun _ _ _ h h' => h'.trans h
      on_addStatic := fun _ _ => hrecord _
      on_addDynamic := fun _ _ => hrecord _
      on_addUsages := fun _ _ => hrecord _
      on_setRoutes := fun _ _ => hrecord _
      on_setLazyModules := fun _ => hrecord _ }
  exact hbegins.readChange o d e b

/-- A change of nothing but the generated module is not looked at. -/
lemma outcome_handle_of_own (h : isOwnChange o d e = true) (b : Build) :
    outcome (handle o d e) b = (.ok (), b) := by
  unfold handle
  rw [h]
  rfl

/-- Any other change is read in a build that is prepared for it, and the findings are closed
afterwards. The route map is out of date if the reading succeeds. -/
lemma outcome_handle (h : isOwnChange o d e = false) (b : Build) :
    outcome (handle o d e) b =
      match outcome (readChange o d e) (prepared e b) with
      | (.ok (), b') => (.ok (), { b' with findings := b'.findings.close, isDirty := true })
      | (.error x, b') => (.error x, { b' with findings := b'.findings.close }) := by
  rcases hread : outcome (readChange o d e) (prepared e b) with ⟨result, b'⟩
  have hattempt : outcome (attempt (readChange o d e)) (prepared e b) = (.ok result, b') := by
    rw [outcome_attempt, hread]
  have hprepared : outcome (handle o d e) b =
      outcome (do
        let result ← attempt (readChange o d e)
        modifyFindings Findings.close
        settle result
        markDirty true) (prepared e b) := by
    unfold handle
    simp only [h, Bool.false_eq_true, if_false]
    rfl
  rw [hprepared, outcome_bind_ok hattempt, outcome_bind_ok (outcome_modifyFindings _ _)]
  cases result with
  | ok _ => rfl
  | error _ => rfl

/-- The findings after an event are those of its reading, closed. -/
lemma findings_handle (h : isOwnChange o d e = false) (b : Build) :
    (outcome (handle o d e) b).2.findings =
      (outcome (readChange o d e) (prepared e b)).2.findings.close := by
  rw [outcome_handle h]
  rcases outcome (readChange o d e) (prepared e b) with ⟨_ | _, _⟩ <;> rfl

/-- No event takes an edge away. -/
lemma keepsEdges_handle (o : Options) (d : Disk) (e : FileEvent) (b : Build) :
    b.findings.KeepsEdges (outcome (handle o d e) b).2.findings := by
  cases hown : isOwnChange o d e with
  | true =>
    rw [outcome_handle_of_own hown]
    exact .of_eq rfl rfl rfl
  | false =>
    have hkeeps : (prepared e b).findings.Keeps _ := begins_grows.readChange o d e (prepared e b)
    rw [findings_handle hown]
    exact ⟨hkeeps.static, hkeeps.dynamic, hkeeps.usages⟩

/-- An event that touches no entry file leaves the beginning as it is. -/
lemma sameBeginning_handle (h : ¬ ReachesEntry o d e) (b : Build) :
    b.findings.SameBeginning (outcome (handle o d e) b).2.findings := by
  cases hown : isOwnChange o d e with
  | true =>
    rw [outcome_handle_of_own hown]
    exact .refl _
  | false =>
    rw [findings_handle hown]
    rcases findings_readChange_of_not_reachesEntry h (prepared e b) with hsame | ⟨b', hb', hread⟩
    · rw [hsame]
      exact ⟨rfl, rfl, rfl⟩
    · have hretains : b'.findings.SameBeginning _ := collects_retains.readCurrent o d e b'
      rw [hb'] at hretains
      rw [hread]
      exact ⟨hretains.routes_eq, hretains.routerImports_eq, hretains.lazyModules_eq⟩

/-- A deletion that touches no entry file leaves all findings as they are. -/
lemma close_findings_handle_of_deletion (hkind : e.kind = FileEvent.deletion)
    (h : ¬ ReachesEntry o d e) (b : Build) :
    (outcome (handle o d e) b).2.findings.close = b.findings.close := by
  cases hown : isOwnChange o d e with
  | true => rw [outcome_handle_of_own hown]
  | false =>
    rw [findings_handle hown]
    have hnothing : readCurrent o d e = pure () := by
      unfold readCurrent
      rw [hkind]
      rfl
    rcases findings_readChange_of_not_reachesEntry h (prepared e b) with hsame | ⟨b', hb', hread⟩
    · rw [hsame]
      rfl
    · rw [hread, hnothing, outcome_pure, hb']
      rfl

/-- An event that is looked at leaves the findings closed. -/
lemma isClosed_handle (h : isOwnChange o d e = false) (b : Build) :
    (outcome (handle o d e) b).2.findings.isClosed = true := by
  rw [findings_handle h]
  rfl

/-! ## All events -/

/-- A build after some events, each on the disk that it finds. An event whose reading fails leaves
behind what it has changed. -/
def handled (o : Options) (b : Build) (steps : List (FileEvent × Disk)) : Build :=
  steps.foldl (fun b (e, d) => (outcome (handle o d e) b).2) b

/-- Events one after the other, and then others. -/
lemma handled_append (o : Options) (b : Build) (before after : List (FileEvent × Disk)) :
    handled o b (before ++ after) = handled o (handled o b before) after := List.foldl_append

/-- No events take an edge away. -/
lemma keepsEdges_handled (o : Options) (b : Build) (steps : List (FileEvent × Disk)) :
    b.findings.KeepsEdges (handled o b steps).findings := by
  induction steps generalizing b with
  | nil => exact .of_eq rfl rfl rfl
  | cons step steps ih => exact (keepsEdges_handle o step.2 step.1 b).trans (ih _)

/-- Events that touch no entry file leave the beginning as it is. -/
lemma sameBeginning_handled {steps : List (FileEvent × Disk)}
    (h : ∀ step ∈ steps, ¬ ReachesEntry o step.2 step.1) (b : Build) :
    b.findings.SameBeginning (handled o b steps).findings := by
  induction steps generalizing b with
  | nil => exact .refl _
  | cons step steps ih =>
    obtain ⟨hfirst, hrest⟩ := List.forall_mem_cons.1 h
    exact (sameBeginning_handle hfirst b).trans (ih hrest _)

/-- **Between full runs the findings only grow.** Whatever the events and the disks that they find,
and whichever of them fail: no edge of a module is lost. The routes, the imports of the router and
what dependencies stand for are the same as before unless some event touches an entry file. At any
time a deletion that touches none leaves all findings as they are, and an event that is looked at
leaves them closed, even where its reading fails. -/
theorem handled_retains (o : Options) (b : Build) (steps : List (FileEvent × Disk)) :
    b.findings.KeepsEdges (handled o b steps).findings ∧
    ((∀ step ∈ steps, ¬ ReachesEntry o step.2 step.1) →
      b.findings.SameBeginning (handled o b steps).findings) ∧
    ∀ (d : Disk) (e : FileEvent),
      let later := handled o b (steps ++ [(e, d)])
      (e.kind = FileEvent.deletion → ¬ ReachesEntry o d e →
        later.findings.close = (handled o b steps).findings.close) ∧
      (isOwnChange o d e = false → later.findings.isClosed = true) := by
  refine ⟨keepsEdges_handled o b steps, fun h => sameBeginning_handled h b, fun d e => ?_⟩
  rw [handled_append]
  exact ⟨fun hkind h => close_findings_handle_of_deletion hkind h _, fun h => isClosed_handle h _⟩

end RouteAssets.Build
