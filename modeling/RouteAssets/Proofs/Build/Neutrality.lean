import RouteAssets.Proofs.Build.Events
import RouteAssets.Proofs.Build.Forgetting
import RouteAssets.Proofs.Build.Order

/-!
# Events without a change

An event may come although nothing has happened to the disk since the last full run. Whether it
leaves the findings as they are is a matter of the module that it makes the build read.

* **No module** (`sameUpToOrder_handle_of_quiet`): where the build begins anew, or reads nothing, or
  breaks off, the findings are the same up to order. The beginning of a disk that is read twice adds
  the listed usages twice.
* **One module** (`sameUpToOrder_handle_iff`): its edges are added, so the findings are the same
  exactly if they have these edges already. A full run has found those of all sources.
* **Astray** (`Strays`): a full run reads the sources only, but an event makes the build read any
  script that it leads to. One in an ignored directory, one named like a test, and one outside the
  source directory are read for the first time.
* **Neutral events** (`handle_neutral`): for any event but one that strays, the findings are the
  same and the route map is generated as before. One that strays can change both
  (`handle_neutral_of_ignored`).
-/

namespace RouteAssets.Build

/-! ## Adding edges to closed findings -/

section Closing

variable {f : Findings} {c : Findings → Findings} {e : Edges}

/-- Adding edges to closed findings leaves them the same exactly if they have these edges. -/
lemma sameUpToOrder_close_iff (hadds : Adds c e) (hclosed : f.isClosed = true) :
    f.SameUpToOrder (c f.reopen).close ↔ e.Within f := by
  constructor
  · intro h
    have hwithin := hadds.within f.reopen
    constructor
    · exact fun m t ht => (h.static_iff m t).2 (hwithin.static m t ht)
    · exact fun m t ht => (h.dynamic_iff m t).2 (hwithin.dynamic m t ht)
    · exact fun m x hx => (h.usage_iff m x).2 (hwithin.usage m x hx)
  · intro h
    constructor
    · have hsame := hadds.sameBeginning f.reopen
      exact ⟨hsame.routes_eq, hsame.routerImports_eq, hsame.lazyModules_eq⟩
    · intro m t
      exact ((hadds.static_iff f.reopen m t).trans (or_iff_left_of_imp (h.static m t))).symm
    · intro m t
      exact ((hadds.dynamic_iff f.reopen m t).trans (or_iff_left_of_imp (h.dynamic m t))).symm
    · intro m x
      exact ((hadds.usage_iff f.reopen m x).trans (or_iff_left_of_imp (h.usage m x))).symm
    · exact hclosed.symm

/-- Findings that are opened and closed again are the same. -/
lemma sameUpToOrder_close_reopen (hclosed : f.isClosed = true) :
    f.SameUpToOrder f.reopen.close :=
  (sameUpToOrder_close_iff adds_id hclosed).2 ⟨nofun, nofun, nofun⟩

end Closing

/-! ## Settings of a run -/

section Settings

variable {o : Options} {d : Disk}

/-- Options that are all asked for and answered are no misfits. -/
lemma eq_map_ok_of_outcome_mapM {fields : List (Field String)} {names : List String}
    {b b' : Build} (h : outcome (fields.mapM demand) b = (.ok names, b')) :
    fields = names.map .ok := by
  induction fields generalizing b names with
  | nil =>
    cases h
    rfl
  | cons field fields ih =>
    rw [List.mapM_cons] at h
    obtain ⟨name, b₁, hname, h⟩ := exists_of_outcome_bind h
    obtain ⟨rest, b₂, hrest, h⟩ := exists_of_outcome_bind h
    cases h
    rw [eq_ok_of_outcome_demand hname, ih hrest, List.map_cons]

/-- The beginning of a build needs rules for looking up modules, the names of the registration files
and the setting of the listing. -/
lemma needs_of_begin {b b' : Build} (h : outcome (begin o d) b = (.ok (), b')) :
    (∃ rules, o.lookup = .ok rules) ∧ (∃ names : List String, o.registrationFiles = names.map .ok) ∧
      ∃ name?, o.usageFile = .ok name? := by
  unfold begin at h
  obtain ⟨routes, b₁, hroutes, h⟩ := exists_of_outcome_bind h
  obtain ⟨lazyCount, b₂, hregistrations, h⟩ := exists_of_outcome_bind h
  obtain ⟨⟨⟩, b₃, husages, -⟩ := exists_of_outcome_bind h
  obtain ⟨rules, _, hrules, -⟩ := exists_of_outcome_bind hroutes
  obtain ⟨_, _, -, hrest⟩ := exists_of_outcome_bind hregistrations
  obtain ⟨names, _, hnames, -⟩ := exists_of_outcome_bind hrest
  obtain ⟨name?, _, hname, -⟩ := exists_of_outcome_bind husages
  exact ⟨⟨rules, eq_ok_of_outcome_demand hrules⟩, ⟨names, eq_map_ok_of_outcome_mapM hnames⟩,
    name?, eq_ok_of_outcome_demand hname⟩

/-- Generating the route map needs the patterns of chunks. -/
lemma needs_of_generate {cs : List (Chunk Json)} {files : RouteMap} {b b' : Build}
    (h : outcome (generate o cs) b = (.ok files, b')) :
    ∃ patterns, o.chunkPatterns = .ok patterns := by
  cases hpatterns : o.chunkPatterns with
  | ok patterns => exact ⟨patterns, rfl⟩
  | error m =>
    unfold generate at h
    obtain ⟨_, _, -, h⟩ := exists_of_outcome_bind h
    obtain ⟨_, _, -, h⟩ := exists_of_outcome_bind h
    obtain ⟨_, _, -, h⟩ := exists_of_outcome_bind h
    rw [hpatterns] at h
    cases hadds : o.addsImportedChunks <;> rw [hadds] at h <;> cases h

/-- Builds with findings that are the same up to order generate the same route map. -/
lemma exists_outcome_generate {cs : List (Chunk Json)} {files : RouteMap} {b b' c : Build}
    (h : outcome (generate o cs) b = (.ok files, b'))
    (hsame : b.findings.SameUpToOrder c.findings) :
    ∃ c', outcome (generate o cs) c = (.ok files, c') := by
  have hanswer := generate_congr o cs hsame
  rw [h] at hanswer
  exact ⟨(outcome (generate o cs) c).2, Prod.ext hanswer.symm rfl⟩

/-- Options with the standard vocabulary. They differ from others in nothing but what is read of a
module behind its imports. -/
def withVocabulary (o : Options) : Options := { o with vocabulary := .ok .standard }

/-- A full run that answers has settings, unless the vocabulary is a misfit. -/
lemma exists_settings_of_run {cs : List (Chunk Json)} {files : RouteMap} {b b' : Build}
    (h : outcome (run o d cs) b = (.ok files, b')) :
    Nonempty (Settings (withVocabulary o)) ∧
      ((∃ vocabulary, o.vocabulary = .ok vocabulary) → Nonempty (Settings o)) := by
  obtain ⟨b₁, sources, b₂, count, b₃, hbegin, -, -, hgenerate⟩ := exists_steps_of_run h
  obtain ⟨⟨rules, hrules⟩, ⟨names, hnames⟩, name?, hname⟩ := needs_of_begin hbegin
  obtain ⟨patterns, hpatterns⟩ := needs_of_generate hgenerate
  constructor
  · exact ⟨⟨rules, names, name?, .standard, patterns, hrules, hnames, hname, rfl, hpatterns⟩⟩
  · rintro ⟨vocabulary, hvocabulary⟩
    exact ⟨⟨rules, names, name?, vocabulary, patterns, hrules, hnames, hname, hvocabulary,
      hpatterns⟩⟩

/-- What has been listed after the beginning of a run are the sources. -/
lemma sourceFiles_of_discover (s : Settings o) {b b₁ b₂ : Build} {sources : List Path}
    (hb : Ready s.rules d b) (hbegin : outcome (begin o d) b = (.ok (), b₁))
    (hdiscover : outcome (discover o d) b₁ = (.ok sources, b₂)) :
    sourceFiles o d = .ok sources := by
  have hneeds : RoutersEnd d o ∧ ∃ usages, usagesListed s d = .ok usages := by
    by_contra hnone
    obtain ⟨x, b', herror⟩ := fails_begin hnone b hb
    cases hbegin.symm.trans herror
  obtain ⟨⟨routers, hrouters, hends⟩, usages, husages⟩ := hneeds
  obtain ⟨found, hfound⟩ := (exists_routesFound_iff s d).2 hends
  obtain ⟨c, hc, -⟩ := denotes_begin hrouters hfound husages
  obtain ⟨b₁', hbegin', hb₁, -⟩ := hc b hb
  cases hbegin.symm.trans hbegin'
  obtain ⟨b₂', hdiscover', -⟩ := denotes_discover s d b₁ hb₁
  have hsources := congrArg Prod.fst (hdiscover.symm.trans hdiscover')
  cases hfiles : sourceFiles o d with
  | error x =>
    rw [hfiles] at hsources
    cases hsources
  | ok files =>
    rw [hfiles] at hsources
    cases hsources
    rfl

/-- Where the vocabulary is a misfit, a full run that answers has opened no module, so it comes to
the same with the standard vocabulary. -/
lemma exists_outcome_run_withVocabulary {cs : List (Chunk Json)} {files : RouteMap} {b b' : Build}
    {m : Misfit} (hm : o.vocabulary = .error m) (s : Settings (withVocabulary o))
    (h : outcome (run o d cs) b = (.ok files, b')) :
    (∃ b'', outcome (run (withVocabulary o) d cs) b = (.ok files, b'') ∧
      b''.findings = b'.findings) ∧
    ∀ sources, sourceFiles o d = .ok sources → ∀ p ∈ sources, opened? d p = none := by
  obtain ⟨b₁, sources, b₂, count, b₃, hbegin, hdiscover, hread, hgenerate⟩ := exists_steps_of_run h
  have hanswered := fun p (hp : p ∈ sources) => answered_of_readModules hread hp
  have hnone : ∀ p ∈ sources, opened? d p = none := by
    intro p hp
    rw [Option.eq_none_iff_forall_ne_some]
    intro n hn
    obtain ⟨c, found, -, hopened, hfinished⟩ := hanswered p hp
    obtain ⟨hfound, -⟩ := needs_of_openModule hn hopened
    obtain ⟨c', hanswer⟩ := hfinished n hfound
    obtain ⟨vocabulary, hvocabulary⟩ := needs_of_finishModule hanswer
    cases hm.symm.trans hvocabulary
  have hidle : ∀ p ∈ sources, ∀ b, ∃ ns,
      outcome (openModule o d p) b = (.ok none, { b with notices := ns }) := by
    intro p hp
    obtain ⟨c, found, -, hopened, -⟩ := hanswered p hp
    exact outcome_openModule_of_none (hnone p hp) hopened
  obtain ⟨count₁, ns₁, h₁⟩ := outcome_readModules_of_idle hidle b₂
  obtain ⟨count₂, ns₂, h₂⟩ := outcome_readModules_of_idle (o := withVocabulary o) hidle b₂
  cases hread.symm.trans h₁
  constructor
  · have hrun := outcome_run_of_steps (o := withVocabulary o) cs hbegin hdiscover h₂
    -- what has been said of the modules is all that differs, and the map is not made from it
    obtain ⟨b'', hgenerate'⟩ := exists_outcome_generate hgenerate
      (c := { b₂ with findings := b₂.findings.close, isDirty := false, notices := ns₂ }) (.refl _)
    refine ⟨b'', hrun.trans hgenerate', ?_⟩
    rw [findings_of_generate hgenerate', findings_of_generate hgenerate]
  · intro sources' hsources'
    have hsources : sourceFiles o d = .ok sources :=
      sourceFiles_of_discover s (ready_of_forgotten d b) hbegin hdiscover
    cases hsources'.symm.trans hsources
    exact hnone

end Settings

/-! ## Events that read no module -/

section Quiet

variable {o : Options} {d : Disk} {e : FileEvent}

/-- An event makes the build read a module to its end: it touches no entry file, and it leads to a
script that has a tree and no static import that breaks the look-up. -/
structure Reads (s : Settings o) (d : Disk) (e : FileEvent) (n : Opened) : Prop where
  rereads : Rereads s e.current (e, d)
  kind_ne : e.kind ≠ FileEvent.deletion
  isFile : d.isFile e.current = .ok true
  opened : opened? d e.current = some n

variable {s : Settings o} (field : Field Usage.Vocabulary)

/-- Whatever becomes of the vocabulary, a path that does not open to a module adds nothing. -/
lemma findings_readModule_of_quiet {p : Path} (h : Opens s d p → opened? d p = none) {b : Build}
    (hb : Ready s.rules d b) :
    (outcome (readModule { o with vocabulary := field } d p) b).2.findings = b.findings := by
  unfold readModule
  by_cases hopens : Opens s d p
  · have hopen := denotes_openModule hopens
    rw [h hopens] at hopen
    obtain ⟨b₁, hstep, -, hf₁⟩ := hopen b hb
    have hstep' : outcome (openModule { o with vocabulary := field } d p) b = (.ok none, b₁) :=
      hstep
    rw [outcome_bind_ok hstep']
    exact hf₁
  · obtain ⟨x, hopen⟩ := denotes_openModule_of_not_opens hopens
    obtain ⟨b₁, hstep, -, hf₁⟩ := hopen b hb
    have hstep' : outcome (openModule { o with vocabulary := field } d p) b = (.error x, b₁) :=
      hstep
    rw [outcome_bind_error hstep']
    exact hf₁

/-- An event that leads to no module adds nothing. -/
lemma findings_readCurrent_of_quiet
    (h : e.kind ≠ FileEvent.deletion → d.isFile e.current = .ok true → Opens s d e.current →
      opened? d e.current = none) {b : Build} (hb : Ready s.rules d b) :
    (outcome (readCurrent { o with vocabulary := field } d e) b).2.findings = b.findings := by
  unfold readCurrent
  split
  · rename_i hkind
    rcases hfile : d.isFile e.current with x | _ | _
    · rfl
    · rfl
    · have hmodule := findings_readModule_of_quiet field (h (by simpa using hkind) hfile) hb
      have hthere : outcome (onDisk (.ok true)) b = (.ok true, b) := rfl
      rw [outcome_bind_ok hthere, if_pos rfl, outcome_bind]
      rcases hstep : outcome (readModule { o with vocabulary := field } d e.current) b with
        ⟨x | found, b₁⟩
      · rwa [hstep] at hmodule
      · rwa [hstep] at hmodule
  · rfl

/-- Whether a path is the one of an entry file is not a matter of the vocabulary. -/
lemma isEntryFile_vocabulary (o : Options) (d : Disk) :
    isEntryFile { o with vocabulary := field } d = isEntryFile o d := by
  have hregistration : ∀ p names,
      isRegistration { o with vocabulary := field } d p names = isRegistration o d p names := by
    intro p names
    induction names with
    | nil => rfl
    | cons name names ih =>
      unfold isRegistration
      rw [ih]
  funext p
  unfold isEntryFile
  rw [hregistration]
  rfl

/-- Where an entry file is touched the build begins anew, whatever becomes of the vocabulary, and
otherwise it reads what the event leads to. -/
lemma outcome_readChange (s : Settings o) (d : Disk) (e : FileEvent) (b : Build) :
    outcome (readChange { o with vocabulary := field } d e) b =
      if TouchesEntry s (e, d) then outcome (begin o d) b
      else outcome (readCurrent { o with vocabulary := field } d e) b := by
  unfold readChange
  rw [isEntryFile_vocabulary, outcome_bind_ok (outcome_anyM_isEntryFile s d e b)]
  by_cases hentry : TouchesEntry s (e, d)
  · rw [decide_eq_true hentry, if_pos hentry]
    rfl
  · rw [decide_eq_false hentry, if_neg hentry]
    rfl

variable {routers sources : List Path} {usages : Usage.ByModule} {b : Build}
  (hends : RoutersEnd d o)
  (hrouters : Route.routerFiles d (d.resolve o.routerDirectory) = .ok routers)
  (husages : usagesListed s d = .ok usages)
  (hfound : HasFound s d routers sources usages b.findings)
  (hclosed : b.findings.isClosed = true)

include hends hrouters husages hfound

/-- A build that has found what can be read on a disk, and begins anew on this disk, finds the same
beginning and the listed usages. -/
lemma exists_adds_begin (e : FileEvent) : ∃ c, Adds c (listedEdges o usages) ∧
    (outcome (begin o d) (prepared e b)).2.findings = c b.findings.reopen := by
  obtain ⟨ps, hps, hdefinitions⟩ := hends
  cases hrouters.symm.trans hps
  obtain ⟨found, hextracted⟩ := (exists_routesFound_iff s d).2 hdefinitions
  obtain ⟨c, hc, hadds⟩ := denotes_begin hrouters hextracted husages
  obtain ⟨b₁, hbegin, -, hf₁⟩ := hc (prepared e b) (ready_prepared s d e b)
  refine ⟨c, hadds, ?_⟩
  obtain ⟨hroutes, himports⟩ := Route.extractFiles_eq hextracted
  obtain ⟨hroutes', himports'⟩ :=
    extractions_filter_hasTree (d := d) (s.answer d) routers Table.empty
  have hroutes_eq : found.routes = b.findings.routes :=
    (hroutes.trans hroutes'.symm).trans hfound.routes_eq.symm
  have himports_eq : found.imports = b.findings.routerImports :=
    (himports.trans himports'.symm).trans hfound.routerImports_eq.symm
  rw [hbegin, hf₁, hroutes_eq, himports_eq, ← hfound.lazyModules_eq]
  rfl

include hclosed

/-- An event on the disk of the run that makes the build read no module leaves the findings the
same: the beginning is found again, or nothing is found at all. -/
lemma sameUpToOrder_handle_of_quiet (hquiet : ∀ n, ¬ Reads s d e n) :
    b.findings.SameUpToOrder
      (outcome (handle { o with vocabulary := field } d e) b).2.findings := by
  cases hown : isOwnChange o d e with
  | true =>
    have hown' : isOwnChange { o with vocabulary := field } d e = true := hown
    rw [outcome_handle_of_own hown']
    exact .refl _
  | false =>
    have hown' : isOwnChange { o with vocabulary := field } d e = false := hown
    rw [findings_handle hown', outcome_readChange field s]
    by_cases hentry : TouchesEntry s (e, d)
    · obtain ⟨c, hadds, hbegin⟩ := exists_adds_begin hends hrouters husages hfound e
      rw [if_pos hentry, hbegin]
      exact (sameUpToOrder_close_iff hadds hclosed).2 hfound.within_listed
    · have hnone : e.kind ≠ FileEvent.deletion → d.isFile e.current = .ok true →
          Opens s d e.current → opened? d e.current = none := by
        intro hkind hfile hopens
        rw [Option.eq_none_iff_forall_ne_some]
        exact fun n hn => hquiet n ⟨⟨hown, hentry, hopens⟩, hkind, hfile, hn⟩
      rw [if_neg hentry, findings_readCurrent_of_quiet field hnone (ready_prepared s d e b)]
      exact sameUpToOrder_close_reopen hclosed

/-- An event on the disk of the run leaves the findings the same exactly if the edges of the module
that it makes the build read are known. -/
lemma sameUpToOrder_handle_iff :
    b.findings.SameUpToOrder (outcome (handle o d e) b).2.findings ↔
      ∀ n, Reads s d e n → (moduleEdges s d n).Within b.findings := by
  by_cases hreads : ∃ n, Reads s d e n
  · obtain ⟨n, hn⟩ := hreads
    obtain ⟨hown, hentry, hopens⟩ := hn.rereads
    obtain ⟨c, hadds, hafter⟩ :=
      exists_adds_handle hown hentry hn.kind_ne hn.isFile hopens hn.opened b
    rw [hafter, sameUpToOrder_close_iff hadds hclosed]
    constructor
    · intro hwithin n' hn'
      cases hn.opened.symm.trans hn'.opened
      exact hwithin
    · exact fun h => h n hn
  · have hquiet := not_exists.1 hreads
    constructor
    · exact fun _ n hn => absurd hn (hquiet n)
    · exact fun _ =>
        sameUpToOrder_handle_of_quiet o.vocabulary hends hrouters husages hfound hclosed hquiet

end Quiet

/-! ## Events that lead astray -/

section Straying

variable {o : Options} {d : Disk} {e : FileEvent}

/-- An event makes the build read a script that is not among the sources. -/
structure Strays (o : Options) (d : Disk) (e : FileEvent) : Prop where
  not_own : isOwnChange o d e = false
  not_entry : ¬ ReachesEntry o d e
  kind_ne : e.kind ≠ FileEvent.deletion
  isFile : d.isFile e.current = .ok true
  isScript : ModuleId.isCompiled (d.resolve e.current).toString = true
  not_source : ∀ sources, sourceFiles o d = .ok sources →
    ∀ p ∈ sources, d.resolve p ≠ d.resolve e.current

/-- The module that an event makes the build read is one of the sources, unless the event strays. -/
lemma Reads.exists_source {s : Settings o} {n : Opened} (h : Reads s d e n)
    (hstrays : ¬ Strays o d e) :
    ∃ sources, sourceFiles o d = .ok sources ∧ ∃ p ∈ sources, opened? d p = some n := by
  obtain ⟨hown, hentry, -⟩ := h.rereads
  by_contra hnone
  refine hstrays ⟨hown, mt (touchesEntry_of_reachesEntry s d) hentry, h.kind_ne, h.isFile,
    (exists_source_of_opened h.opened).1, ?_⟩
  intro sources hsources p hp hplace
  have hopened : opened? d p = opened? d e.current := by
    unfold opened?
    rw [hplace]
  exact hnone ⟨sources, hsources, p, hp, hopened.trans h.opened⟩

end Straying

/-! ## Neutral events -/

section Neutral

variable {o : Options} {d : Disk} {cs : List (Chunk Json)} {files : RouteMap} {b b₀ : Build}
  (hrun : outcome (run o d cs) b = (.ok files, b₀))

include hrun

/-- After a run with settings the findings stay the same exactly if the edges of the module that the
event makes the build read are known. -/
lemma sameUpToOrder_iff_of_run (s : Settings o) (e : FileEvent) :
    b₀.findings.SameUpToOrder (outcome (handle o d e) b₀).2.findings ↔
      ∀ n, Reads s d e n → (moduleEdges s d n).Within b₀.findings := by
  obtain ⟨hends, routers, sources, usages, hrouters, -, husages, hfound⟩ :=
    exists_hasFound_of_run (s := s) hrun
  exact sameUpToOrder_handle_iff hends hrouters husages hfound (settled_of_run hrun).2

/-- After a run an event that does not stray leaves the findings the same. -/
lemma sameUpToOrder_of_not_strays {e : FileEvent} (hstrays : ¬ Strays o d e) :
    b₀.findings.SameUpToOrder (outcome (handle o d e) b₀).2.findings := by
  obtain ⟨⟨s'⟩, hsettings⟩ := exists_settings_of_run hrun
  cases hvocabulary : o.vocabulary with
  | ok vocabulary =>
    obtain ⟨s⟩ := hsettings ⟨vocabulary, hvocabulary⟩
    obtain ⟨-, routers, sources, usages, -, hsources, -, hfound⟩ :=
      exists_hasFound_of_run (s := s) hrun
    refine (sameUpToOrder_iff_of_run hrun s e).2 fun n hn => ?_
    obtain ⟨sources', hsources', p, hp, hopened⟩ := hn.exists_source hstrays
    cases hsources.symm.trans hsources'
    exact hfound.within hp hopened
  | error m =>
    -- the run has opened no module, so the event opens none either
    obtain ⟨⟨b', hrun', hfindings⟩, hnone⟩ := exists_outcome_run_withVocabulary hvocabulary s' hrun
    obtain ⟨hends, routers, sources, usages, hrouters, -, husages, hfound⟩ :=
      exists_hasFound_of_run (s := s') hrun'
    rw [hfindings] at hfound
    have hstrays' : ¬ Strays (withVocabulary o) d e :=
      fun h => hstrays ⟨h.1, h.2, h.3, h.4, h.5, h.6⟩
    have hquiet : ∀ n, ¬ Reads s' d e n := by
      intro n hn
      obtain ⟨sources', hsources', p, hp, hopened⟩ := hn.exists_source hstrays'
      cases (hnone sources' hsources' p hp).symm.trans hopened
    have hsame := sameUpToOrder_handle_of_quiet o.vocabulary hends hrouters husages hfound
      (settled_of_run hrun).2 hquiet
    exact hsame

/-- After a run, findings that are the same give the same map. -/
lemma refresh_of_sameUpToOrder {c : Build} (hsame : b₀.findings.SameUpToOrder c.findings) :
    (outcome (refresh o cs) c).1 = .ok files := by
  obtain ⟨_, _, _, _, b₃, -, -, -, hgenerate⟩ := exists_steps_of_run hrun
  rw [findings_of_generate hgenerate] at hsame
  obtain ⟨c', hgenerate'⟩ := exists_outcome_generate hgenerate hsame
  unfold refresh
  rw [outcome_bind_ok hgenerate']
  rfl

end Neutral

/-- **Without a change of the disk an event is neutral, unless it leads to a script that is not
among the sources.** After a full run that answers, on the same disk, and whatever the event: the
routes and what dependencies stand for stay as they are, and no edge is lost. An event that does not
stray leaves each module the same edges, so the route map is generated anew as it was. In general
this is so exactly if the edges of the module that the event makes the build read are known from the
run. -/
theorem handle_neutral {o : Options} {d : Disk} {cs : List (Chunk Json)} {files : RouteMap}
    {b b₀ : Build} (hrun : outcome (run o d cs) b = (.ok files, b₀)) (e : FileEvent) :
    let later := (outcome (handle o d e) b₀).2
    b₀.findings.SameBeginning later.findings ∧ b₀.findings.KeepsEdges later.findings ∧
    (¬ Strays o d e → b₀.findings.SameUpToOrder later.findings) ∧
    (∀ s : Settings o, b₀.findings.SameUpToOrder later.findings ↔
      ∀ n, Reads s d e n → (moduleEdges s d n).Within b₀.findings) ∧
    (b₀.findings.SameUpToOrder later.findings → (outcome (refresh o cs) later).1 = .ok files) := by
  refine ⟨?_, keepsEdges_handle o d e b₀, sameUpToOrder_of_not_strays hrun,
    fun s => sameUpToOrder_iff_of_run hrun s e, refresh_of_sameUpToOrder hrun⟩
  by_cases hentry : ReachesEntry o d e
  · exact (sameUpToOrder_of_not_strays hrun fun h => h.not_entry hentry).toSameBeginning
  · exact sameBeginning_handle hentry b₀

/-! ## A script in an ignored directory -/

/-- The options of a project that keeps its router in the root directory. -/
def ignoringOptions : Options := { listingOptions with routerDirectory := Path.ofString "/app" }

/-- The text of a router with one route. -/
def routerText : String :=
  "import A from './src/a'\ncreateRouter(\x7broutes:[\x7bpath:'/a',component:A\x7d]\x7d)"

/-- A project with a route whose module imports a script in an ignored directory, which imports a
source dynamically. -/
def ignoringDisk : Disk :=
  let script := fun text => Disk.Node.file (Text.writeUtf8 (String.toList text))
  { nodes := Table.ofList [(["app"], .directory), (["app", "deps.json"], .file [0x7b, 0x7d]),
      (["app", "index.js"], script routerText), (["app", "src"], .directory),
      (["app", "src", "a.js"], script "import './coverage/plan'"),
      (["app", "src", "b.js"], script ""), (["app", "src", "coverage"], .directory),
      (["app", "src", "coverage", "plan.js"], script "import('../b')")]
    workingDirectory := ["app"] }

/-- Two chunks of one source each. -/
def ignoringChunks : List (Chunk Json) :=
  [⟨"a.js", ["/app/src/a.js"], [], [], [], false, false⟩,
    ⟨"b.js", ["/app/src/b.js"], [], [], [], false, false⟩]

/-- An event for a file of the project that has been written again as it was. -/
def rewritten (path : String) : FileEvent := ⟨"modified", Path.ofString path, none⟩

/-- What the route map is after an event that comes without a change. -/
def refreshed (path : String) (b : Build) : Except BuildFault RouteMap :=
  (outcome (refresh ignoringOptions ignoringChunks)
    (outcome (handle ignoringOptions ignoringDisk (rewritten path)) b).2).1

/-- An event for the source leaves the route map as it is. One for the ignored script strays: the
build reads it for the first time, so that the route gets the chunk of what it imports, though
nothing has changed. -/
theorem handle_neutral_of_ignored :
    ∃ files b₀, outcome (run ignoringOptions ignoringDisk ignoringChunks) Build.start =
        (.ok files, b₀) ∧
      files.get? "/a" = some ["a.js"] ∧
      refreshed "/app/src/a.js" b₀ = .ok files ∧
      (refreshed "/app/src/coverage/plan.js" b₀).toOption.map (·.get? "/a") =
        some (some ["a.js", "b.js"]) ∧
      Strays ignoringOptions ignoringDisk (rewritten "/app/src/coverage/plan.js") ∧
      ¬ b₀.findings.SameUpToOrder (outcome (handle ignoringOptions ignoringDisk
        (rewritten "/app/src/coverage/plan.js")) b₀).2.findings := by
  have hgrown : (refreshed "/app/src/coverage/plan.js"
      (outcome (run ignoringOptions ignoringDisk ignoringChunks) Build.start).2).toOption.map
        (·.get? "/a") = some (some ["a.js", "b.js"]) := by decide +kernel
  have hplain : (outcome (run ignoringOptions ignoringDisk ignoringChunks)
      Build.start).1.toOption.map (·.get? "/a") = some (some ["a.js"]) := by decide +kernel
  have hsource : ∃ sources, sourceFiles ignoringOptions ignoringDisk = .ok sources ∧
      (rewritten "/app/src/a.js").current ∈ sources := by decide +kernel
  have hstays : ¬ Strays ignoringOptions ignoringDisk (rewritten "/app/src/a.js") := by
    intro h
    obtain ⟨sources, hsources, hmem⟩ := hsource
    exact h.not_source sources hsources _ hmem rfl
  rcases hrun : outcome (run ignoringOptions ignoringDisk ignoringChunks) Build.start with
    ⟨x | files, b₀⟩
  · rw [hrun] at hplain
    cases hplain
  · rw [hrun] at hplain hgrown
    obtain ⟨-, -, hsame, -, hrefresh⟩ := handle_neutral hrun (rewritten "/app/src/a.js")
    obtain ⟨-, -, hsame', -, hrefresh'⟩ :=
      handle_neutral hrun (rewritten "/app/src/coverage/plan.js")
    have hlists : files.get? "/a" = some ["a.js"] := Option.some.inj hplain
    have hdiffers : ¬ b₀.findings.SameUpToOrder (outcome (handle ignoringOptions ignoringDisk
        (rewritten "/app/src/coverage/plan.js")) b₀).2.findings := by
      intro h
      unfold refreshed at hgrown
      rw [hrefresh' h] at hgrown
      cases (Option.some.inj hgrown).symm.trans hlists
    refine ⟨files, b₀, rfl, hlists, ?_, hgrown, ?_, hdiffers⟩
    · unfold refreshed
      exact hrefresh (hsame hstays)
    · by_contra h
      exact hdiffers (hsame' h)

end RouteAssets.Build
