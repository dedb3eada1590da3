import RouteAssets.Command.Watching
import RouteAssets.Proofs.Build.Order
import RouteAssets.Proofs.Build.Retention
import RouteAssets.Proofs.Build.Run
import RouteAssets.Proofs.Chunk.Description
import RouteAssets.Proofs.Command.Session

/-!
# Changes while a project is watched

While a project is watched the loop takes its steps, changes of files are folded into the build, and
anybody may edit the disk, all in any order (`Move`). What can be seen of this is a list of
happenings (`Happening`).

* **One move** (`effect_of_move`): what each happening does to the findings, to the mark of the
  route map and to the place of the loop. Only a map that is generated and a round that is skipped
  take the mark away.
* **Breaking off** (`move?_loading_eq_none_iff`): the loop ends over a description of the bundle
  exactly where this has a fault that nothing reports.
* **All moves** (`findings_of_run`, `isDirty_of_run`, `mem_written_of_run`): the findings are those
  of the last change, the mark stays until one of these two happens, and what is generated is
  written before the loop sleeps.
* **Lost changes** (`lost_iff_skipped`): when the loop sleeps over a map that counts as up to date,
  a change has come to no map exactly if a round has been skipped after it and no map has been
  generated since. Such changes there are (`lost_iff_skipped_of_broken_bundle`), for skipping a
  round takes the mark away without a map.
-/

namespace RouteAssets.Command

open RouteAssets.Command.Session

/-! ## Moves -/

/-- A project that is being watched: its session, and where the loop is. -/
structure Watched where
  session : Session
  phase : Phase

/-- What may happen next: somebody edits the disk, a change of a file is told of, or the loop takes
a step. -/
inductive Move where
  | edit (d : Disk)
  | change (e : FileEvent)
  | step

/-- What can be seen of a move. Changes come with the findings that they leave behind. -/
inductive Happening where
  | edited (d : Disk)
  | ignored (e : FileEvent)
  | folded (e : FileEvent) (f : Findings)
  | broken (e : FileEvent) (f : Findings)
  | looked
  | skipped
  | generated (f : Findings) (m : RouteMap)
  | written (m : RouteMap)
  deriving DecidableEq

namespace Happening

/-- What can be seen of a change. -/
def ofChange (p : Project) (e : FileEvent) (s : Session) : Happening :=
  if Build.isOwnChange p.options s.disk e then .ignored e
  else
    match outcome (change p e) s with
    | (.ok _, s') => .folded e s'.build.findings
    | (.error _, s') => .broken e s'.build.findings

/-- What can be seen of a step of the loop that leads from one place to another. -/
def ofPhases (f : Findings) : Phase → Phase → Happening
  | .skipping _, _ => .skipped
  | .generating _, .writing m => .generated f m
  | .writing m, _ => .written m
  | _, _ => .looked

/-- The findings that a happening leaves behind, if it may have changed them. -/
def findings? : Happening → Option Findings
  | folded _ f => some f
  | broken _ f => some f
  | _ => none

/-- The findings after some happenings. -/
def latest (f : Findings) (xs : List Happening) : Findings :=
  xs.foldl (fun f x => x.findings?.getD f) f

/-- Has a map been generated? -/
def isGenerated : Happening → Bool
  | generated _ _ => true
  | _ => false

end Happening

namespace Watched

/-- What a project that is watched comes to by a move. A step of the loop that fails ends the
command. -/
def move? (p : Project) (w : Watched) : Move → Option (Happening × Watched)
  | .edit d => some (.edited d, { w with session := { w.session with disk := d } })
  | .change e =>
    some (.ofChange p e w.session, { w with session := (outcome (change p e) w.session).2 })
  | .step =>
    match outcome (w.phase.advance p) w.session with
    | (.ok phase, s) => some (.ofPhases w.session.build.findings w.phase phase, ⟨s, phase⟩)
    | (.error _, _) => none

/-- What a project that is watched comes to by some moves, and what can be seen of them. -/
def run? (p : Project) : List Move → Watched → Option (List Happening × Watched)
  | [], w => some ([], w)
  | move :: moves, w => do
    let (x, w) ← w.move? p move
    let (xs, w) ← run? p moves w
    return (x :: xs, w)

end Watched

/-- A route map is the one that is generated from some findings, for the chunks of a bundle. -/
def IsMapOf (p : Project) (f : Findings) (m : RouteMap) : Prop :=
  ∃ cs, ∀ b : Build, b.findings = f → (Build.outcome (Build.generate p.options cs) b).1 = .ok m

/-- Some findings have come to a map: among the happenings after them a map has been generated, from
the findings as the changes until then have left them, and it has been written after that. -/
def Reflected (p : Project) (f : Findings) (xs : List Happening) : Prop :=
  ∃ mid m rest, xs = mid ++ .generated (Happening.latest f mid) m :: rest ∧
    f.KeepsEdges (Happening.latest f mid) ∧ IsMapOf p (Happening.latest f mid) m ∧
    .written m ∈ rest

variable {p : Project} {w w' : Watched} {x : Happening} {xs ys : List Happening}

/-! ## One move -/

/-- Two states of a project that is watched have the same findings and the same mark of the route
map. -/
structure Watched.SameBuild (w w' : Watched) : Prop where
  findings_eq : w'.session.build.findings = w.session.build.findings
  isDirty_eq : w'.session.build.isDirty = w.session.build.isDirty

/-- What happenings do to the findings, to the mark of the route map and to the place of the
loop. -/
inductive Effect (p : Project) (w w' : Watched) : Happening → Prop where
  | edited (d : Disk) (build : w.SameBuild w') (phase : w'.phase = w.phase) :
      Effect p w w' (.edited d)
  | ignored (e : FileEvent) (build : w.SameBuild w') (phase : w'.phase = w.phase) :
      Effect p w w' (.ignored e)
  | folded (e : FileEvent)
      (keeps : w.session.build.findings.KeepsEdges w'.session.build.findings)
      (mark : w'.session.build.isDirty = true) (phase : w'.phase = w.phase) :
      Effect p w w' (.folded e w'.session.build.findings)
  | broken (e : FileEvent)
      (keeps : w.session.build.findings.KeepsEdges w'.session.build.findings)
      (mark : w'.session.build.isDirty = w.session.build.isDirty) (phase : w'.phase = w.phase) :
      Effect p w w' (.broken e w'.session.build.findings)
  | looked (build : w.SameBuild w') (phase : ∀ m, w.phase ≠ .writing m) : Effect p w w' .looked
  | skipped (findings : w'.session.build.findings = w.session.build.findings)
      (phase : ∀ m, w.phase ≠ .writing m) : Effect p w w' .skipped
  | generated (m : RouteMap) (findings : w'.session.build.findings = w.session.build.findings)
      (map : IsMapOf p w.session.build.findings m) (phase : ∀ m, w.phase ≠ .writing m)
      (phase' : w'.phase = .writing m) :
      Effect p w w' (.generated w.session.build.findings m)
  | written (m : RouteMap) (build : w.SameBuild w') (phase : w.phase = .writing m) :
      Effect p w w' (.written m)

/-- A change that is told of is ignored, folded in, or breaks off. -/
lemma effect_of_change (p : Project) (w : Watched) (e : FileEvent) :
    Effect p w { w with session := (outcome (change p e) w.session).2 }
      (.ofChange p e w.session) := by
  have hchange : outcome (change p e) w.session =
      outcome (building p (Build.handle p.options w.session.disk e)) w.session :=
    outcome_bind_ok (outcome_get w.session)
  have hkeeps := Build.keepsEdges_handle p.options w.session.disk e w.session.build
  unfold Happening.ofChange
  rw [hchange, outcome_building]
  cases hown : Build.isOwnChange p.options w.session.disk e with
  | true =>
    rw [Build.outcome_handle_of_own hown]
    exact .ignored e ⟨rfl, rfl⟩ rfl
  | false =>
    have hmark := Build.isDirty_readChange p.options w.session.disk e (Build.prepared e w.session.build)
    rw [Build.outcome_handle hown] at hkeeps ⊢
    rcases hread : Build.outcome (Build.readChange p.options w.session.disk e)
      (Build.prepared e w.session.build) with ⟨fault | _, b⟩
    · rw [hread] at hkeeps hmark
      exact .broken e hkeeps hmark rfl
    · rw [hread] at hkeeps
      exact .folded e hkeeps rfl rfl

/-- Loading the description of the bundle leaves the build as it is. -/
lemma keepsBuild_loading (p : Project) : KeepsBuild (Phase.advance p .loading) := by
  refine keepsBuild_get.bind fun s => (keepsBuild_settle _ _).bind fun loaded => ?_
  cases loaded with
  | ok chunks => exact keepsBuild_pure _
  | error e =>
    cases hmessage : e.message? with
    | some message =>
      simp only [hmessage]
      exact keepsBuild_pure _
    | none =>
      simp only [hmessage]
      exact keepsBuild_throw _

/-- A map that is generated anew is the one of the findings, which stay as they are. -/
lemma generated_of_refresh {cs : List (Chunk Json)} {m : RouteMap} {b b' : Build}
    (h : Build.outcome (Build.refresh p.options cs) b = (.ok m, b')) :
    IsMapOf p b.findings m ∧ b'.findings = b.findings := by
  unfold Build.refresh at h
  obtain ⟨m', b₁, hgenerate, h⟩ := Build.exists_of_outcome_bind h
  cases h
  have hfindings := (Build.composes_leaves.generate p.options cs b).1
  rw [hgenerate] at hfindings
  refine ⟨⟨cs, fun b₂ hb₂ => ?_⟩, hfindings⟩
  have hsame : b₂.findings.SameUpToOrder b.findings := by
    rw [hb₂]
    exact .refl _
  rw [Build.generate_congr p.options cs hsame, hgenerate]

/-- A step of the loop looks, skips a round, generates a map or writes it. -/
lemma effect_of_advance {phase : Phase} {s : Session}
    (h : outcome (w.phase.advance p) w.session = (.ok phase, s)) :
    Effect p w ⟨s, phase⟩ (.ofPhases w.session.build.findings w.phase phase) := by
  obtain ⟨session, place⟩ := w
  cases place with
  | asleep =>
    cases h
    exact .looked ⟨rfl, rfl⟩ nofun
  | awake =>
    cases h
    exact .looked ⟨rfl, rfl⟩ nofun
  | loading =>
    have hbuild := keepsBuild_loading p session
    rw [show outcome (Phase.advance p .loading) session = (.ok phase, s) from h] at hbuild
    exact .looked ⟨congrArg Build.findings hbuild, congrArg Build.isDirty hbuild⟩ nofun
  | skipping message =>
    cases h
    exact .skipped rfl nofun
  | generating cs =>
    obtain ⟨m, s₁, hrefresh, h⟩ := exists_of_outcome_bind h
    cases h
    rw [outcome_building] at hrefresh
    rcases hgenerate : Build.outcome (Build.refresh p.options cs) session.build with ⟨fault | m', b⟩
    · rw [hgenerate] at hrefresh
      cases hrefresh
    · rw [hgenerate] at hrefresh
      cases hrefresh
      obtain ⟨hmap, hfindings⟩ := generated_of_refresh hgenerate
      exact .generated m hfindings hmap nofun rfl
  | writing m =>
    obtain ⟨⟨⟩, s₁, hwrite, h⟩ := exists_of_outcome_bind h
    cases h
    have hbuild := keepsBuild_writeOutputs p m session
    rw [hwrite] at hbuild
    exact .written m ⟨congrArg Build.findings hbuild, congrArg Build.isDirty hbuild⟩ rfl

/-- What can be seen of a move tells what it does. -/
lemma effect_of_move {move : Move} (h : w.move? p move = some (x, w')) : Effect p w w' x := by
  cases move with
  | edit d =>
    cases h
    exact .edited d ⟨rfl, rfl⟩ rfl
  | change e =>
    cases h
    exact effect_of_change p w e
  | step =>
    unfold Watched.move? at h
    rcases hstep : outcome (w.phase.advance p) w.session with ⟨fault | phase, s⟩
    · rw [hstep] at h
      cases h
    · rw [hstep] at h
      cases h
      exact effect_of_advance hstep

/-- A happening changes the findings to those that it leaves behind, if it leaves any. -/
lemma Effect.findings_eq (h : Effect p w w' x) :
    w'.session.build.findings = x.findings?.getD w.session.build.findings := by
  cases h with
  | edited _ build => exact build.findings_eq
  | ignored _ build => exact build.findings_eq
  | folded => rfl
  | broken => rfl
  | looked build => exact build.findings_eq
  | skipped findings => exact findings
  | generated _ findings => exact findings
  | written _ build => exact build.findings_eq

/-- No happening takes an edge away. -/
lemma Effect.keepsEdges (h : Effect p w w' x) :
    w.session.build.findings.KeepsEdges w'.session.build.findings := by
  have hsame : x.findings? = none →
      w.session.build.findings.KeepsEdges w'.session.build.findings := by
    intro hnone
    rw [h.findings_eq, hnone]
    exact .of_eq rfl rfl rfl
  cases h with
  | folded _ keeps => exact keeps
  | broken _ keeps => exact keeps
  | _ => exact hsame rfl

/-- A route map that is out of date stays so until one is generated or a round is skipped. -/
lemma Effect.isDirty (h : Effect p w w' x) (hskipped : x ≠ .skipped)
    (hgenerated : x.isGenerated = false) (hdirty : w.session.build.isDirty = true) :
    w'.session.build.isDirty = true := by
  cases h with
  | edited _ build => exact build.isDirty_eq.trans hdirty
  | ignored _ build => exact build.isDirty_eq.trans hdirty
  | folded _ _ mark => exact mark
  | broken _ _ mark => exact mark.trans hdirty
  | looked build => exact build.isDirty_eq.trans hdirty
  | skipped => exact absurd rfl hskipped
  | generated => cases hgenerated
  | written _ build => exact build.isDirty_eq.trans hdirty

/-- A loop that is about to write a map goes on to be so until the map is written. -/
lemma Effect.writing (h : Effect p w w' x) {m : RouteMap} (hphase : w.phase = .writing m) :
    x = .written m ∨ w'.phase = .writing m := by
  cases h with
  | edited _ _ phase => exact Or.inr (phase.trans hphase)
  | ignored _ _ phase => exact Or.inr (phase.trans hphase)
  | folded _ _ _ phase => exact Or.inr (phase.trans hphase)
  | broken _ _ _ phase => exact Or.inr (phase.trans hphase)
  | looked _ phase => exact absurd hphase (phase m)
  | skipped _ phase => exact absurd hphase (phase m)
  | generated _ _ _ phase => exact absurd hphase (phase m)
  | written m' _ phase =>
    cases phase.symm.trans hphase
    exact Or.inl rfl

/-- A loop that loads the description of the bundle breaks off exactly where this has a fault that
nothing reports. -/
lemma move?_loading_eq_none_iff {path : Path} (hphase : w.phase = .loading)
    (hpath : outputPath p "bundle_description" = .ok path) :
    w.move? p .step = none ↔ Bundle.HasFault w.session.disk path := by
  have hbundle : bundleOf p w.session.disk = .ok (Bundle.load w.session.disk path p.root) := by
    unfold bundleOf
    rw [hpath]
    rfl
  rw [← Bundle.unreported_load_iff p.root, Watched.move?, hphase]
  unfold Phase.advance
  rw [outcome_bind_ok (outcome_get w.session), hbundle]
  cases Bundle.load w.session.disk path p.root with
  | ok chunks =>
    constructor
    · intro h
      cases h
    · rintro ⟨x, hx, -⟩
      cases hx
  | error x =>
    rw [outcome_bind_ok (a := Except.error x) (outcome_settle _ _ _)]
    dsimp only
    cases hmessage : x.message? with
    | some message =>
      constructor
      · intro h
        cases h
      · rintro ⟨y, hy, hnone⟩
        cases hy
        cases hmessage.symm.trans hnone
    | none =>
      exact ⟨fun _ => ⟨x, rfl, hmessage⟩, fun _ => rfl⟩

/-! ## All moves -/

variable {moves : List Move}

/-- The first of the happenings is the one of the first move. -/
lemma exists_of_run_cons (h : w.run? p moves = some (x :: xs, w')) :
    ∃ move w₁ moves', w.move? p move = some (x, w₁) ∧ w₁.run? p moves' = some (xs, w') := by
  cases moves with
  | nil => cases h
  | cons move moves =>
    obtain ⟨⟨y, w₁⟩, hmove, h⟩ := Option.bind_eq_some_iff.1 h
    obtain ⟨⟨ys, w₂⟩, hrest, h⟩ := Option.bind_eq_some_iff.1 h
    cases h
    exact ⟨move, w₁, moves, hmove, hrest⟩

/-- The happenings after some others are those of the moves after theirs. -/
lemma exists_of_run_append (h : w.run? p moves = some (xs ++ ys, w')) :
    ∃ w₁ moves₁ moves₂, w.run? p moves₁ = some (xs, w₁) ∧ w₁.run? p moves₂ = some (ys, w') := by
  induction xs generalizing w moves with
  | nil => exact ⟨w, [], moves, rfl, h⟩
  | cons x xs ih =>
    obtain ⟨move, w₁, moves', hmove, hrest⟩ := exists_of_run_cons h
    obtain ⟨w₂, moves₁, moves₂, hxs, hys⟩ := ih hrest
    refine ⟨w₂, move :: moves₁, moves₂, ?_, hys⟩
    simp [Watched.run?, hmove, hxs]

/-- No moves leave everything as it is. -/
lemma eq_of_run_nil (h : w.run? p moves = some ([], w')) : w' = w := by
  cases moves with
  | nil =>
    cases h
    rfl
  | cons move moves =>
    obtain ⟨⟨y, w₁⟩, hmove, h⟩ := Option.bind_eq_some_iff.1 h
    obtain ⟨⟨ys, w₂⟩, hrest, h⟩ := Option.bind_eq_some_iff.1 h
    cases h

/-- What holds of no happenings, and of some more by the effect of one in front of them, holds of
all. -/
lemma run_induction {R : Watched → List Happening → Prop} (hnil : R w' [])
    (hcons : ∀ w w₁ x xs, Effect p w w₁ x → R w₁ xs → R w (x :: xs))
    (h : w.run? p moves = some (xs, w')) : R w xs := by
  induction xs generalizing w moves with
  | nil =>
    rw [← eq_of_run_nil h]
    exact hnil
  | cons x xs ih =>
    obtain ⟨move, w₁, moves', hmove, hrest⟩ := exists_of_run_cons h
    exact hcons w w₁ x xs (effect_of_move hmove) (ih hrest)

/-- The findings are those that the changes have left. -/
lemma findings_of_run (h : w.run? p moves = some (xs, w')) :
    w'.session.build.findings = Happening.latest w.session.build.findings xs := by
  apply run_induction (R := fun w xs =>
    w'.session.build.findings = Happening.latest w.session.build.findings xs) rfl ?_ h
  intro w w₁ x xs heffect hrest
  rw [hrest, heffect.findings_eq]
  rfl

/-- No moves take an edge away. -/
lemma keepsEdges_of_run (h : w.run? p moves = some (xs, w')) :
    w.session.build.findings.KeepsEdges w'.session.build.findings := by
  apply run_induction (R := fun w _ =>
    w.session.build.findings.KeepsEdges w'.session.build.findings) (.of_eq rfl rfl rfl) ?_ h
  intro w w₁ x xs heffect hrest
  exact heffect.keepsEdges.trans hrest

/-- A route map that is out of date is so as long as none is generated and no round is skipped. -/
lemma isDirty_of_run (h : w.run? p moves = some (xs, w')) (hskipped : .skipped ∉ xs)
    (hgenerated : ∀ x ∈ xs, x.isGenerated = false) (hdirty : w.session.build.isDirty = true) :
    w'.session.build.isDirty = true := by
  revert hskipped hgenerated hdirty
  apply run_induction (R := fun w xs => .skipped ∉ xs → (∀ x ∈ xs, x.isGenerated = false) →
    w.session.build.isDirty = true → w'.session.build.isDirty = true) (fun _ _ h => h) ?_ h
  intro w w₁ x xs heffect hrest hskipped hgenerated hdirty
  rw [List.mem_cons, not_or] at hskipped
  obtain ⟨hfirst, hothers⟩ := List.forall_mem_cons.1 hgenerated
  exact hrest hskipped.2 hothers (heffect.isDirty (Ne.symm hskipped.1) hfirst hdirty)

/-- A map that is about to be written has been written when the loop sleeps. -/
lemma mem_written_of_run {m : RouteMap} (h : w.run? p moves = some (xs, w'))
    (hphase : w.phase = .writing m) (hasleep : w'.phase = .asleep) : .written m ∈ xs := by
  revert hphase
  apply run_induction (R := fun w xs => w.phase = .writing m → .written m ∈ xs) ?_ ?_ h
  · intro hphase
    cases hphase.symm.trans hasleep
  · intro w w₁ x xs heffect hrest hphase
    rcases heffect.writing hphase with rfl | hwriting
    · exact List.mem_cons_self
    · exact List.mem_cons_of_mem x (hrest hwriting)

/-! ## Lost changes -/

/-- Some findings have come to a map when the loop sleeps and a map has been generated since. -/
lemma reflected_of_generated (h : w.run? p moves = some (xs, w')) (hasleep : w'.phase = .asleep)
    (hx : x ∈ xs) (hgenerated : x.isGenerated = true) :
    Reflected p w.session.build.findings xs := by
  obtain ⟨mid, rest, rfl⟩ := List.append_of_mem hx
  obtain ⟨w₁, moves₁, moves₂, hmid, hrun⟩ := exists_of_run_append h
  obtain ⟨move, w₂, moves₃, hmove, hrest⟩ := exists_of_run_cons hrun
  have hfindings := findings_of_run hmid
  have hkeeps := keepsEdges_of_run hmid
  rw [hfindings] at hkeeps
  cases effect_of_move hmove with
  | generated m _ map _ phase' =>
    rw [hfindings] at map
    have hwritten := mem_written_of_run hrest phase' hasleep
    rw [hfindings]
    exact ⟨mid, m, rest, rfl, hkeeps, map, hwritten⟩
  | _ => cases hgenerated

/-- **A change is lost exactly where a round is skipped after it.** Whatever the order of the steps
of the loop, of changes and of edits of the disk: when the loop sleeps and the route map counts as
up to date, a change that has been folded into the findings has come to no map that was generated
and written after it exactly if a round has been skipped after the change and no map has been
generated since the change. -/
theorem lost_iff_skipped {before after : List Happening} {e : FileEvent} {f : Findings}
    (h : w.run? p moves = some (before ++ .folded e f :: after, w'))
    (hasleep : w'.phase = .asleep) (hclean : w'.session.build.isDirty = false) :
    ¬ Reflected p f after ↔ .skipped ∈ after ∧ ∀ x ∈ after, x.isGenerated = false := by
  obtain ⟨w₁, moves₁, moves₂, -, hrun⟩ := exists_of_run_append h
  obtain ⟨move, w₂, moves₃, hmove, hafter⟩ := exists_of_run_cons hrun
  cases effect_of_move hmove with
  | folded _ _ mark =>
    constructor
    · intro hlost
      -- A map that is generated is written before the loop sleeps, so there is none.
      have hnone : ∀ x ∈ after, x.isGenerated = false := by
        intro x hx
        by_contra hgenerated
        rw [Bool.not_eq_false] at hgenerated
        exact hlost (reflected_of_generated hafter hasleep hx hgenerated)
      refine ⟨?_, hnone⟩
      by_contra hskipped
      -- Nothing else takes away the mark that the change has set.
      have hdirty := isDirty_of_run hafter hskipped hnone mark
      rw [hclean] at hdirty
      cases hdirty
    · rintro ⟨-, hnone⟩ ⟨mid, m, rest, rfl, -⟩
      cases hnone _ (List.mem_append_right mid List.mem_cons_self)

/-- Is the loop asleep? -/
def Phase.isAsleep : Phase → Bool
  | .asleep => true
  | _ => false

/-- A loop is asleep where it is said to be. -/
lemma Phase.eq_asleep_of_isAsleep {phase : Phase} (h : phase.isAsleep = true) :
    phase = .asleep := by
  cases phase with
  | asleep => rfl
  | _ => cases h

/-- A project with the standard configuration. -/
def watchedProject : Project where
  root := Path.ofString "/app"
  config := .standard
  options := Build.listingOptions

/-- The disk of this project: two scripts, the first of them as given, and the description of a
bundle. -/
def watchedDisk (script description : String) : Disk where
  nodes := Table.ofList [(["app"], .directory), (["app", "src"], .directory),
    (["app", "src", "a.js"], .file (Text.writeUtf8 script.toList)),
    (["app", "src", "b.js"], .file []), (["app", "dist"], .directory),
    (["app", "dist", ".vite"], .directory),
    (["app", "dist", ".vite", "manifest.json"], .file (Text.writeUtf8 description.toList))]
  workingDirectory := ["app"]

/-- The script has been written anew. -/
def scriptChange : FileEvent := ⟨"modified", Path.ofString "/app/src/a.js", none⟩

/-- The project after its first build, while the loop sleeps. -/
def watchedStart : Watched where
  session := (outcome (buildOnce watchedProject) (Session.start (watchedDisk "" "\x7b\x7d"))).2
  phase := .asleep

/-- The disk on which the script imports a module and the bundle is being written. -/
def changedDisk : Disk := watchedDisk "import './b'" "\x7b"

/-- The findings after the change. -/
def changedFindings : Findings :=
  (Build.outcome (Build.handle watchedProject.options changedDisk scriptChange)
    watchedStart.session.build).2.findings

/-- The change is told of twice: before the loop loads the description of the bundle, and after
that. -/
def changesAroundLoading : List Move :=
  [.edit changedDisk, .change scriptChange, .step, .step, .step, .change scriptChange, .step]

/-- What can be seen of this. -/
def happeningsAroundLoading : List Happening :=
  [.edited changedDisk, .folded scriptChange changedFindings, .looked, .looked, .looked,
    .folded scriptChange changedFindings, .skipped]

/-- A change that is told of while the bundle is being written is lost, before the description of
the bundle is loaded and after that: the loop sleeps, the map counts as up to date, and no map has
been made from the import that is known. -/
theorem lost_iff_skipped_of_broken_bundle :
    (outcome (buildOnce watchedProject) (Session.start (watchedDisk "" "\x7b\x7d"))).1.isOk = true ∧
    "/app/src/b.js" ∈ changedFindings.static.getD "/app/src/a.js" [] ∧
    ∃ w, watchedStart.run? watchedProject changesAroundLoading = some (happeningsAroundLoading, w) ∧
      w.phase = .asleep ∧ w.session.build.isDirty = false ∧
      ¬ Reflected watchedProject changedFindings (happeningsAroundLoading.drop 2) ∧
      ¬ Reflected watchedProject changedFindings (happeningsAroundLoading.drop 6) := by
  have hrun : (watchedStart.run? watchedProject changesAroundLoading).map (fun r =>
      (r.1, r.2.phase.isAsleep, r.2.session.build.isDirty)) =
      some (happeningsAroundLoading, true, false) := by decide +kernel
  obtain ⟨⟨xs, w⟩, hrun, hend⟩ := Option.map_eq_some_iff.1 hrun
  obtain ⟨rfl, hplace, hclean⟩ : xs = happeningsAroundLoading ∧ _ = true ∧ _ = false := by
    simpa only [Prod.mk.injEq] using hend
  have hasleep := Phase.eq_asleep_of_isAsleep hplace
  refine ⟨by decide +kernel, by decide +kernel, w, hrun, hasleep, hclean, ?_, ?_⟩
  · have hsplit : happeningsAroundLoading = [.edited changedDisk] ++
        .folded scriptChange changedFindings :: happeningsAroundLoading.drop 2 := rfl
    rw [hsplit] at hrun
    exact (lost_iff_skipped hrun hasleep hclean).2 (by decide +kernel)
  · have hsplit : happeningsAroundLoading = happeningsAroundLoading.take 5 ++
        .folded scriptChange changedFindings :: happeningsAroundLoading.drop 6 := rfl
    rw [hsplit] at hrun
    exact (lost_iff_skipped hrun hasleep hclean).2 (by decide +kernel)

end RouteAssets.Command
