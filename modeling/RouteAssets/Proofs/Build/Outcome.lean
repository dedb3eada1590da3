import RouteAssets.Build.Step
import RouteAssets.Proofs.Outcome

/-!
# Outcomes of steps

What a step of a build answers and what it leaves behind, part by part. A step that fails ends the
steps in which it occurs, and what has been changed until then stays changed.
-/

namespace RouteAssets.Build

variable {α β : Type}

/-- What a step answers in a build, and the build after it. -/
def outcome (step : BuildStep α) (b : Build) : Except BuildFault α × Build := step.run b

section Laws

variable {step : BuildStep α} {next : α → BuildStep β} {b b' : Build}

/-- A step that only answers. -/
@[simp] lemma outcome_pure (a : α) (b : Build) : outcome (pure a) b = (.ok a, b) := rfl

/-- Asking for the build. -/
@[simp] lemma outcome_get (b : Build) : outcome get b = (.ok b, b) := rfl

/-- Two steps after each other: the second one is taken if the first one answers. -/
lemma outcome_bind (step : BuildStep α) (next : α → BuildStep β) (b : Build) :
    outcome (step >>= next) b =
      match outcome step b with
      | (.ok a, b') => outcome (next a) b'
      | (.error e, b') => (.error e, b') := by
  unfold outcome
  rw [run_bind]
  rcases step.run b with ⟨e | a, b'⟩ <;> rfl

/-- What follows a step that has answered. -/
lemma outcome_bind_ok {a : α} (h : outcome step b = (.ok a, b')) :
    outcome (step >>= next) b = outcome (next a) b' :=
  run_bind_ok h

/-- Nothing follows a step that has failed. -/
lemma outcome_bind_error {e : BuildFault} (h : outcome step b = (.error e, b')) :
    outcome (step >>= next) b = (.error e, b') :=
  run_bind_error h

/-- Steps that answer have answered one after the other. -/
lemma exists_of_outcome_bind {y : β} (h : outcome (step >>= next) b = (.ok y, b')) :
    ∃ x b₁, outcome step b = (.ok x, b₁) ∧ outcome (next x) b₁ = (.ok y, b') :=
  exists_of_run_bind h

end Laws

/-! ## Parts of steps -/

section Parts

variable (b : Build)

/-- Notices are added behind those that have not been shown. -/
@[simp] lemma outcome_tell (ns : List Notice) :
    outcome (tell ns) b = (.ok (), { b with notices := b.notices ++ ns }) := rfl

/-- A look-up changes the memory, and its notices are taken out of it. -/
@[simp] lemma outcome_look (question : StateM Lookup.Memory α) :
    outcome (look question) b = (.ok (question.run b.memory).1,
      { b with
        memory := { (question.run b.memory).2 with notices := [] }
        notices := b.notices ++ (question.run b.memory).2.notices }) := rfl

/-- A change that the findings admit is made. -/
lemma outcome_record_ok {change : Findings → Except Findings.Closed Findings} {f : Findings}
    (h : change b.findings = .ok f) :
    outcome (record change) b = (.ok (), { b with findings := f }) := by
  unfold record
  rw [outcome_bind_ok (outcome_get b)]
  simp only [h]
  rfl

/-- A change that the findings refuse is not made. -/
lemma outcome_record_error {change : Findings → Except Findings.Closed Findings}
    {c : Findings.Closed} (h : change b.findings = .error c) :
    outcome (record change) b = (.error (.closed c), b) := by
  unfold record
  rw [outcome_bind_ok (outcome_get b)]
  simp only [h]
  rfl

/-- A change of the findings, whether they are open or closed. -/
@[simp] lemma outcome_modifyFindings (change : Findings → Findings) :
    outcome (modifyFindings change) b = (.ok (), { b with findings := change b.findings }) := rfl

/-- All answers are forgotten. -/
@[simp] lemma outcome_forgetLookups :
    outcome forgetLookups b = (.ok (), { b with memory := b.memory.forget }) := rfl

/-- The mark of the route map. -/
@[simp] lemma outcome_markDirty (isDirty : Bool) :
    outcome (markDirty isDirty) b = (.ok (), { b with isDirty }) := rfl

/-- An option with a value. -/
@[simp] lemma outcome_demand_ok (a : α) : outcome (demand (.ok a)) b = (.ok a, b) := rfl

/-- An option that is answered has the value. -/
lemma eq_ok_of_outcome_demand {field : Field α} {a : α} {b b' : Build}
    (h : outcome (demand field) b = (.ok a, b')) : field = .ok a := by
  cases field with
  | ok a' =>
    cases h
    rfl
  | error m => cases h

/-- An attempt answers with what the step comes to. -/
@[simp] lemma outcome_attempt (step : BuildStep α) :
    outcome (attempt step) b = (.ok (outcome step b).1, (outcome step b).2) := rfl

/-- A result that is settled is the answer or the failure. -/
@[simp] lemma outcome_settle (result : Except BuildFault α) :
    outcome (settle result) b = (result, b) := by cases result <;> rfl

end Parts

end RouteAssets.Build
