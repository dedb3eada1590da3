import RouteAssets.Proofs.Build.Outcome
import RouteAssets.Proofs.Module.Memory

/-!
# Steps on an unchanging disk

A build is **ready** (`Ready`) when what it remembers is what would be found and its findings are
open. On an unchanging disk a step of a ready build depends on nothing but the findings: it
**denotes** (`Denotes`) a result and a change of the findings, or **fails** (`Fails`). Both compose
along the steps.
-/

namespace RouteAssets.Build

open RouteAssets.Lookup

/-- What is remembered is what would be found, and the findings are open. -/
structure Ready (r : Rules) (d : Disk) (b : Build) : Prop where
  coherent : b.memory.Coherent r d
  isOpen : b.findings.isClosed = false

/-- Every ready build comes to the result, with the findings changed, and is ready again. -/
def Denotes {α : Type} (r : Rules) (d : Disk) (step : BuildStep α) (result : Except BuildFault α)
    (change : Findings → Findings) : Prop :=
  ∀ b, Ready r d b → ∃ b', outcome step b = (result, b') ∧ Ready r d b' ∧
    b'.findings = change b.findings

/-- No ready build gets an answer. -/
def Fails {α : Type} (r : Rules) (d : Disk) (step : BuildStep α) : Prop :=
  ∀ b, Ready r d b → ∃ e b', outcome step b = (.error e, b')

section Laws

variable {α β : Type} {r : Rules} {d : Disk}

/-- Answering changes nothing. -/
lemma denotes_pure (a : α) : Denotes r d (pure a) (.ok a) id := fun b hb => ⟨b, rfl, hb, rfl⟩

/-- Failing changes nothing. -/
lemma denotes_throw (e : BuildFault) : Denotes r d (throw e : BuildStep α) (.error e) id :=
  fun b hb => ⟨b, rfl, hb, rfl⟩

/-- A step and what follows its answer. -/
lemma Denotes.bind {step : BuildStep α} {next : α → BuildStep β} {a : α}
    {result : Except BuildFault β} {c k : Findings → Findings} (h : Denotes r d step (.ok a) c)
    (h' : Denotes r d (next a) result k) : Denotes r d (step >>= next) result (k ∘ c) := by
  intro b hb
  obtain ⟨b₁, hstep, hb₁, hc⟩ := h b hb
  obtain ⟨b₂, hnext, hb₂, hc'⟩ := h' b₁ hb₁
  exact ⟨b₂, (outcome_bind_ok hstep).trans hnext, hb₂, by rw [hc', hc, Function.comp_apply]⟩

/-- A step that answers without changing anything, and what follows. -/
lemma Denotes.bind_id {step : BuildStep α} {next : α → BuildStep β} {a : α}
    {result : Except BuildFault β} {c : Findings → Findings} (h : Denotes r d step (.ok a) id)
    (h' : Denotes r d (next a) result c) : Denotes r d (step >>= next) result c := h.bind h'

/-- A step whose answer is turned into another one. -/
lemma Denotes.bind_pure {step : BuildStep α} {a : α} {c : Findings → Findings}
    (h : Denotes r d step (.ok a) c) (g : α → β) :
    Denotes r d (step >>= fun a => pure (g a)) (.ok (g a)) c := by
  intro b hb
  obtain ⟨b', hstep, hb', hc⟩ := h b hb
  exact ⟨b', (outcome_bind_ok hstep).trans (outcome_pure _ _), hb', hc⟩

/-- A step whose answer does not matter. -/
lemma Denotes.then_pure {step : BuildStep α} {a : α} {c : Findings → Findings}
    (h : Denotes r d step (.ok a) c) (b : β) :
    Denotes r d (step >>= fun _ => pure b) (.ok b) c := h.bind_pure fun _ => b

/-- Nothing follows a failure. -/
lemma Denotes.bind_error {step : BuildStep α} (next : α → BuildStep β) {e : BuildFault}
    {c : Findings → Findings} (h : Denotes r d step (.error e) c) :
    Denotes r d (step >>= next) (.error e) c := by
  intro b hb
  obtain ⟨b₁, hstep, hb₁, hc⟩ := h b hb
  exact ⟨b₁, outcome_bind_error hstep, hb₁, hc⟩

/-- A step that denotes a failure fails. -/
lemma Denotes.fails {step : BuildStep α} {e : BuildFault} {c : Findings → Findings}
    (h : Denotes r d step (.error e) c) : Fails r d step := by
  intro b hb
  obtain ⟨b', hstep, -⟩ := h b hb
  exact ⟨e, b', hstep⟩

/-- Steps fail with the first of them. -/
lemma Fails.bind {step : BuildStep α} (h : Fails r d step) (next : α → BuildStep β) :
    Fails r d (step >>= next) := by
  intro b hb
  obtain ⟨e, b', hstep⟩ := h b hb
  exact ⟨e, b', outcome_bind_error hstep⟩

/-- Steps fail with a later one. -/
lemma Denotes.bind_fails {step : BuildStep α} {next : α → BuildStep β} {a : α}
    {c : Findings → Findings} (h : Denotes r d step (.ok a) c) (h' : Fails r d (next a)) :
    Fails r d (step >>= next) := by
  intro b hb
  obtain ⟨b₁, hstep, hb₁, -⟩ := h b hb
  obtain ⟨e, b₂, hnext⟩ := h' b₁ hb₁
  exact ⟨e, b₂, (outcome_bind_ok hstep).trans hnext⟩

/-! ## Parts of steps -/

/-- Notices are no findings. -/
lemma denotes_tell (ns : List Notice) : Denotes r d (tell ns) (.ok ()) id :=
  fun b hb => ⟨_, outcome_tell b ns, ⟨hb.coherent, hb.isOpen⟩, rfl⟩

/-- Looking up answers what the question settles on. -/
lemma denotes_look {question : StateM Memory α} {a : α}
    (h : Settles (Memory.Coherent r d) question a) : Denotes r d (look question) (.ok a) id := by
  intro b hb
  obtain ⟨rfl, hcoherent⟩ := h b.memory hb.coherent
  exact ⟨_, outcome_look b question, ⟨hcoherent.congr rfl, hb.isOpen⟩, rfl⟩

/-- Findings that are open take something in. -/
lemma denotes_change (change : Findings → Findings)
    (h : ∀ f, (change f).isClosed = f.isClosed) :
    Denotes r d (record fun f => f.change change) (.ok ()) change := by
  intro b hb
  have hopen : b.findings.change change = .ok (change b.findings) := by
    rw [Findings.change, hb.isOpen]
    rfl
  exact ⟨_, outcome_record_ok b hopen, ⟨hb.coherent, (h _).trans hb.isOpen⟩, rfl⟩

/-- An attempt answers with what the step comes to. -/
lemma denotes_attempt {step : BuildStep α} {result : Except BuildFault α} {c : Findings → Findings}
    (h : Denotes r d step result c) : Denotes r d (attempt step) (.ok result) c := by
  intro b hb
  obtain ⟨b', hstep, hb', hc⟩ := h b hb
  exact ⟨b', by rw [outcome_attempt, hstep], hb', hc⟩

/-- A result that is settled is the answer or the failure. -/
lemma denotes_settle (result : Except BuildFault α) : Denotes r d (settle result) result id :=
  fun b hb => ⟨b, outcome_settle b result, hb, rfl⟩

/-! ## Lists of steps -/

/-- Steps for the items of a list, all of which answer. -/
lemma denotes_mapM {f : α → BuildStep β} {g : α → β} {c : α → Findings → Findings} {xs : List α}
    (h : ∀ x ∈ xs, Denotes r d (f x) (.ok (g x)) (c x)) :
    Denotes r d (xs.mapM f) (.ok (xs.map g)) fun fs => xs.foldl (fun fs x => c x fs) fs := by
  induction xs with
  | nil => exact denotes_pure []
  | cons x xs ih =>
    obtain ⟨hx, hxs⟩ := List.forall_mem_cons.1 h
    rw [List.mapM_cons]
    refine hx.bind (k := fun fs => xs.foldl (fun fs x => c x fs) fs) ?_
    exact (ih hxs).bind_pure fun rest => g x :: rest

/-- Steps for the items of a list, without answers. -/
lemma denotes_forM {f : α → BuildStep PUnit} {c : α → Findings → Findings} {xs : List α}
    (h : ∀ x ∈ xs, Denotes r d (f x) (.ok ⟨⟩) (c x)) :
    Denotes r d (xs.forM f) (.ok ⟨⟩) fun fs => xs.foldl (fun fs x => c x fs) fs := by
  induction xs with
  | nil => exact denotes_pure _
  | cons x xs ih =>
    obtain ⟨hx, hxs⟩ := List.forall_mem_cons.1 h
    refine hx.bind (k := fun fs => xs.foldl (fun fs x => c x fs) fs) ?_
    exact ih hxs

/-- Changing nothing for each item of a list changes nothing. -/
lemma foldl_id (xs : List α) :
    (fun fs : Findings => xs.foldl (fun fs _ => id fs) fs) = id := by
  funext fs
  exact List.foldl_fixed' (fun _ => rfl) xs

/-- Steps for the items of a list, all of which answer without changing anything. -/
lemma denotes_mapM_id {f : α → BuildStep β} {g : α → β} {xs : List α}
    (h : ∀ x ∈ xs, Denotes r d (f x) (.ok (g x)) id) :
    Denotes r d (xs.mapM f) (.ok (xs.map g)) id := by
  rw [← foldl_id xs]
  exact denotes_mapM h

/-- Steps for the items of a list, without answers or changes. -/
lemma denotes_forM_id {f : α → BuildStep PUnit} {xs : List α}
    (h : ∀ x ∈ xs, Denotes r d (f x) (.ok ⟨⟩) id) : Denotes r d (xs.forM f) (.ok ⟨⟩) id := by
  rw [← foldl_id xs]
  exact denotes_forM h

/-- Steps for the items of a list, one of which fails. -/
lemma fails_mapM {f : α → BuildStep β} {g : α → Except BuildFault β} {xs : List α}
    (h : ∀ x, Denotes r d (f x) (g x) id) (hx : ∃ x ∈ xs, ∃ e, g x = .error e) :
    Fails r d (xs.mapM f) := by
  induction xs with
  | nil => simp at hx
  | cons x xs ih =>
    rw [List.mapM_cons]
    cases hgx : g x with
    | error e => exact ((hgx ▸ h x : Denotes r d (f x) (.error e) id).fails).bind _
    | ok a =>
      obtain ⟨y, hy, e, he⟩ := hx
      rcases List.mem_cons.1 hy with rfl | hy
      · cases hgx.symm.trans he
      · exact (hgx ▸ h x : Denotes r d (f x) (.ok a) id).bind_fails ((ih ⟨y, hy, e, he⟩).bind _)

end Laws

end RouteAssets.Build
