import RouteAssets.Module.Lookup
import RouteAssets.Proofs.Imports.Asking
import RouteAssets.Proofs.Path
import RouteAssets.Proofs.Table

/-!
# What is remembered does not show

A memory is **coherent** with a disk (`Memory.Coherent`) when every answer in it is the one that
would be found again. A look-up with a coherent memory answers what is found without one and leaves
a coherent memory behind (`settles_resolve`), so that a resolver with a memory follows fixed answers
as long as the disk stays the same (`settles_resolver`).
-/

namespace RouteAssets.Lookup

/-- Every answer that is remembered would be found again. -/
def Memory.Coherent (r : Rules) (d : Disk) (m : Memory) : Prop :=
  ∀ specifier directory answer, directory.IsWritten →
    m.answers.get? (specifier, directory.toString) = some answer →
      r.find d specifier directory = .ok answer

/-- What a specifier comes to for an importer, when nothing is remembered. -/
def Rules.answer (r : Rules) (d : Disk) (specifier : String) (importer : ModuleId) : Answer :=
  toAnswer (r.find d specifier (directoryOf importer))

section Memory

variable {r : Rules} {d : Disk}

/-- Nothing wrong is remembered where all has been forgotten. -/
lemma Memory.coherent_forget (m : Memory) : m.forget.Coherent r d := by
  intro specifier directory answer _ h
  cases h

/-- Coherence is about answers alone. -/
lemma Memory.Coherent.congr {m m' : Memory} (h : m.Coherent r d) (ha : m'.answers = m.answers) :
    m'.Coherent r d := by
  intro specifier directory answer hd hget
  exact h specifier directory answer hd (ha ▸ hget)

/-- The directory of an importing module is denoted by a text. -/
lemma isWritten_directoryOf (importer : ModuleId) : (directoryOf importer).IsWritten :=
  (Path.isWritten_ofString _).parent

/-- What a look-up answers, and what it leaves behind. -/
lemma run_resolve (specifier : String) (importer : ModuleId) (m : Memory) :
    (r.resolve d specifier importer).run m =
      match m.answers.get? (specifier, (directoryOf importer).toString) with
      | some answer => (.ok answer, m)
      | none =>
        match r.find d specifier (directoryOf importer) with
        | .error e => (.error e, m)
        | .ok answer =>
          (.ok answer,
            { m with
              answers := m.answers.insert (specifier, (directoryOf importer).toString) answer
              notices := m.notices ++
                if answer.isNone then [.specifierUnresolved specifier importer] else [] }) := by
  unfold Rules.resolve
  rw [StateT.run_bind, StateT.run_get, pure_bind]
  dsimp only
  rcases m.answers.get? (specifier, (directoryOf importer).toString) with _ | answer
  · rcases r.find d specifier (directoryOf importer) with e | answer <;> rfl
  · rfl

/-- A look-up answers what is found without a memory, and remembers nothing else. -/
lemma settles_resolve (specifier : String) (importer : ModuleId) :
    Settles (Memory.Coherent r d) (r.resolve d specifier importer)
      (r.find d specifier (directoryOf importer)) := by
  intro m hm
  have hwritten := isWritten_directoryOf importer
  rw [run_resolve]
  split
  · rename_i answer hget
    exact ⟨(hm specifier _ answer hwritten hget).symm, hm⟩
  · split
    · rename_i e hfind
      exact ⟨hfind.symm, hm⟩
    · rename_i answer hfind
      refine ⟨hfind.symm, fun s directory a hd hget => ?_⟩
      rw [Table.get?_insert] at hget
      split at hget
      · -- what has just been found: the text of a directory tells which directory it is
        rename_i hkey
        obtain ⟨rfl, hdirectory⟩ := Prod.mk.inj hkey
        rw [← Path.toString_inj hwritten hd hdirectory, hfind, Option.some.inj hget]
      · exact hm s directory a hd hget

/-- The resolver with a memory follows what is found without one. -/
lemma settles_resolver (specifier : String) (importer : ModuleId) :
    Settles (Memory.Coherent r d) (r.resolver d specifier importer)
      (r.answer d specifier importer) :=
  (settles_resolve specifier importer).bind (settles_pure _)

end Memory

end RouteAssets.Lookup
