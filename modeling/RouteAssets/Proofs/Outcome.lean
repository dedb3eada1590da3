import Mathlib.Tactic.Lemma

/-!
# Steps that may fail

Changes of a disk, steps of a build, of emitting and of a session answer or fail, and what they have
changed until then stays changed. Two steps after each other come to what the second one comes to, if
the first one has answered, and to the failure of the first one otherwise.

Questions that change nothing are the simpler case: two after each other answer if both of them do.
-/

namespace RouteAssets

/-! ## Steps that change nothing -/

section Questions

variable {ε ε' α β : Type} {step : Except ε α} {next : α → Except ε β}

/-- An answer is the same whatever failures stand for. -/
lemma mapError_ok (f : ε → ε') (a : α) : (Except.ok a).mapError f = .ok a := rfl

/-- A failure is the one that it stands for. -/
lemma mapError_error (f : ε → ε') (e : ε) : (Except.error e : Except ε α).mapError f = .error (f e) :=
  rfl

/-- Two steps after each other answer if both of them do. -/
lemma bind_eq_ok_iff {y : β} : (step >>= next) = .ok y ↔ ∃ x, step = .ok x ∧ next x = .ok y := by
  cases step with
  | error e => exact ⟨(nomatch ·), (nomatch ·.choose_spec.1)⟩
  | ok x => exact ⟨fun h => ⟨x, rfl, h⟩, fun ⟨x', hx, h⟩ => Except.ok.inj hx ▸ h⟩

/-- Two steps after each other answer if the first one does and the second one would. -/
lemma bind_answers_iff {q : Prop} (h : ∀ x, step = .ok x → ((∃ y, next x = .ok y) ↔ q)) :
    (∃ y, (step >>= next) = .ok y) ↔ (∃ x, step = .ok x) ∧ q := by
  simp only [bind_eq_ok_iff]
  constructor
  · rintro ⟨y, x, hx, hy⟩
    exact ⟨⟨x, hx⟩, (h x hx).1 ⟨y, hy⟩⟩
  · rintro ⟨⟨x, hx⟩, hq⟩
    obtain ⟨y, hy⟩ := (h x hx).2 hq
    exact ⟨y, x, hx, hy⟩

end Questions

/-! ## Steps that change a state -/

variable {ε σ α β : Type} {step : ExceptT ε (StateM σ) α} {next : α → ExceptT ε (StateM σ) β}
  {s s' : σ}

/-- Two steps after each other: the second one is taken if the first one answers. -/
lemma run_bind (step : ExceptT ε (StateM σ) α) (next : α → ExceptT ε (StateM σ) β) (s : σ) :
    (step >>= next).run s =
      match step.run s with
      | (.ok a, s') => (next a).run s'
      | (.error e, s') => (.error e, s') := by
  change ExceptT.bindCont next (step.run s).1 (step.run s).2 = _
  rcases step.run s with ⟨a | e, s'⟩ <;> rfl

/-- What follows a step that has answered. -/
lemma run_bind_ok {a : α} (h : step.run s = (.ok a, s')) :
    (step >>= next).run s = (next a).run s' := by
  rw [run_bind, h]

/-- Nothing follows a step that has failed. -/
lemma run_bind_error {e : ε} (h : step.run s = (.error e, s')) :
    (step >>= next).run s = (.error e, s') := by
  rw [run_bind, h]

/-- Steps that answer have answered one after the other. -/
lemma exists_of_run_bind {y : β} (h : (step >>= next).run s = (.ok y, s')) :
    ∃ x s₁, step.run s = (.ok x, s₁) ∧ (next x).run s₁ = (.ok y, s') := by
  rcases hstep : step.run s with ⟨e | x, s₁⟩
  · rw [run_bind_error hstep] at h
    cases h
  · rw [run_bind_ok hstep] at h
    exact ⟨x, s₁, rfl, h⟩

/-- A failure that is caught: what catches it goes on from what the failed step has left. -/
lemma run_tryCatch (step : ExceptT ε (StateM σ) α) (catching : ε → ExceptT ε (StateM σ) α)
    (s : σ) :
    (tryCatch step catching).run s =
      match step.run s with
      | (.ok a, s') => (.ok a, s')
      | (.error e, s') => (catching e).run s' := by
  change (match (step.run s).1 with
    | .ok a => (pure (.ok a) : StateM σ (Except ε α))
    | .error e => (catching e).run) (step.run s).2 = _
  rcases step.run s with ⟨e | a, s'⟩ <;> rfl

end RouteAssets
