import RouteAssets.Command.Session
import RouteAssets.Proofs.Build.Outcome

/-!
# What steps of a session come to

What a step of a session answers and what it leaves behind, part by part, in the words that are used
for the steps of a build. A session takes steps of its build (`outcome_building`); whatever else it
does leaves the build as it is (`KeepsBuild`), and so does writing the outputs
(`keepsBuild_writeOutputs`).
-/

namespace RouteAssets.Command.Session

variable {α β : Type}

/-- What a step answers in a session, and the session after it. -/
def outcome (step : SessionStep α) (s : Session) : Except Failure α × Session := step.run s

section Laws

variable {step : SessionStep α} {next : α → SessionStep β} {s s' : Session}

/-- A step that only answers. -/
@[simp] lemma outcome_pure (a : α) (s : Session) : outcome (pure a) s = (.ok a, s) := rfl

/-- Asking for the session. -/
@[simp] lemma outcome_get (s : Session) : outcome get s = (.ok s, s) := rfl

/-- Two steps after each other: the second one is taken if the first one answers. -/
lemma outcome_bind (step : SessionStep α) (next : α → SessionStep β) (s : Session) :
    outcome (step >>= next) s =
      match outcome step s with
      | (.ok a, s') => outcome (next a) s'
      | (.error f, s') => (.error f, s') := by
  unfold outcome
  rw [run_bind]
  rcases step.run s with ⟨f | a, s'⟩ <;> rfl

/-- What follows a step that has answered. -/
lemma outcome_bind_ok {a : α} (h : outcome step s = (.ok a, s')) :
    outcome (step >>= next) s = outcome (next a) s' :=
  run_bind_ok h

/-- Steps that answer have answered one after the other. -/
lemma exists_of_outcome_bind {y : β} (h : outcome (step >>= next) s = (.ok y, s')) :
    ∃ x s₁, outcome step s = (.ok x, s₁) ∧ outcome (next x) s₁ = (.ok y, s') :=
  exists_of_run_bind h

end Laws

/-! ## Parts of steps -/

/-- The answer to a question is the answer of the step. -/
@[simp] lemma outcome_settle {ε : Type} (failure : ε → Failure) (answer : Except ε α)
    (s : Session) : outcome (settle failure answer) s = (answer.mapError failure, s) := by
  cases answer <;> rfl

/-- Notices are added to what is shown. -/
@[simp] lemma outcome_tell (isVerbose : Bool) (ns : List Notice) (s : Session) :
    outcome (tell isVerbose ns) s =
      (.ok (), { s with output := s.output ++ Notice.shown isVerbose ns }) := rfl

section Failing

variable {s s' : Session} {f : Failure}

end Failing

/-- A step of the build changes the build, whose notices are taken out of it and shown. -/
lemma outcome_building (p : Project) (step : BuildStep α) (s : Session) :
    outcome (building p step) s =
      ((Build.outcome step s.build).1.mapError .build,
        { s with
          build := (Build.outcome step s.build).2.takeNotices.2
          output := s.output ++
            Notice.shown p.options.isVerbose (Build.outcome step s.build).2.notices }) := by
  have hparts : outcome (building p step) s =
      outcome (settle .build (Build.outcome step s.build).1)
        { s with
          build := (Build.outcome step s.build).2.takeNotices.2
          output := s.output ++
            Notice.shown p.options.isVerbose (Build.outcome step s.build).2.notices } := rfl
  rw [hparts, outcome_settle]

/-! ## What leaves a part of the session as it is -/

section Keeps

variable {γ : Type} {part : Session → γ}

/-- A step that leaves a part of the session as it is, whether it answers or fails. -/
def Keeps (part : Session → γ) (step : SessionStep α) : Prop :=
  ∀ s, part (outcome step s).2 = part s

/-- Two steps that leave a part as it is do so together. -/
lemma Keeps.bind {step : SessionStep α} {next : α → SessionStep β} (h : Keeps part step)
    (hnext : ∀ a, Keeps part (next a)) : Keeps part (step >>= next) := by
  intro s
  have hfirst := h s
  rw [outcome_bind]
  rcases hstep : outcome step s with ⟨f | a, s'⟩
  · rw [hstep] at hfirst
    exact hfirst
  · rw [hstep] at hfirst
    exact (hnext a s').trans hfirst

/-- Answering leaves every part as it is. -/
lemma keeps_pure (a : α) : Keeps part (pure a) := fun _ => rfl

/-- Asking for the session leaves every part as it is. -/
lemma keeps_get : Keeps part get := fun _ => rfl

/-- Settling an answer leaves every part as it is. -/
lemma keeps_settle {ε : Type} (failure : ε → Failure) (answer : Except ε α) :
    Keeps part (settle failure answer) := by
  intro s
  rw [outcome_settle]

end Keeps

/-! ## What leaves the build as it is -/

/-- A step that leaves the build as it is, whether it answers or fails. -/
def KeepsBuild (step : SessionStep α) : Prop := ∀ s, (outcome step s).2.build = s.build

/-- Two steps that leave the build as it is do so together. -/
lemma KeepsBuild.bind {step : SessionStep α} {next : α → SessionStep β} (h : KeepsBuild step)
    (hnext : ∀ a, KeepsBuild (next a)) : KeepsBuild (step >>= next) :=
  Keeps.bind h hnext

/-- Answering leaves the build as it is. -/
lemma keepsBuild_pure (a : α) : KeepsBuild (pure a) := keeps_pure a

/-- Asking for the session leaves the build as it is. -/
lemma keepsBuild_get : KeepsBuild get := keeps_get

/-- Failing leaves the build as it is. -/
lemma keepsBuild_throw (f : Failure) : KeepsBuild (throw f : SessionStep α) := fun _ => rfl

/-- Settling an answer leaves the build as it is. -/
lemma keepsBuild_settle {ε : Type} (failure : ε → Failure) (answer : Except ε α) :
    KeepsBuild (settle failure answer) :=
  keeps_settle failure answer

/-- Showing notices leaves the build as it is. -/
lemma keepsBuild_tell (isVerbose : Bool) (ns : List Notice) : KeepsBuild (tell isVerbose ns) :=
  fun _ => rfl

/-- Emitting leaves the build as it is. -/
lemma keepsBuild_emitting (step : EmissionStep α) : KeepsBuild (emitting step) := by
  intro s
  exact keepsBuild_settle .emission (step.run s.disk).1 { s with disk := (step.run s.disk).2 }

/-- Writing the outputs leaves the build as it is. -/
lemma keepsBuild_writeOutputs (p : Project) (m : RouteMap) : KeepsBuild (writeOutputs p m) := by
  refine (keepsBuild_settle _ _).bind fun directory => ?_
  refine (keepsBuild_settle _ _).bind fun name => ?_
  refine (keepsBuild_emitting _).bind fun asset => ?_
  refine (keepsBuild_emitting _).bind fun patched => ?_
  refine (keepsBuild_tell _ _).bind fun _ => ?_
  refine (keepsBuild_settle _ _).bind fun path => ?_
  have hsummary : KeepsBuild (do
      tell p.options.isVerbose [.mapWritten m.size (fileCount m) asset.toString]
      unless patched.files.isEmpty do
        tell p.options.isVerbose [.placeholdersReplaced patched.files.length]) := by
    refine (keepsBuild_tell _ _).bind fun _ => ?_
    split
    · exact keepsBuild_pure ()
    · exact keepsBuild_tell _ _
  cases path with
  | none => exact hsummary
  | some path =>
    refine (keepsBuild_emitting _).bind fun _ => ?_
    exact (keepsBuild_tell _ _).bind fun _ => hsummary

end RouteAssets.Command.Session
