import RouteAssets.Build.Findings
import RouteAssets.Build.Options
import RouteAssets.Notice

/-!
# Steps of a build

A build keeps its findings, what has been looked up, whether the route map is out of date, and the
notices that have not been shown. A step may fail; what it has changed until then stays changed.
-/

namespace RouteAssets

/-- The state of a build. -/
structure Build where
  findings : Findings
  memory : Lookup.Memory
  isDirty : Bool
  notices : List Notice
  deriving DecidableEq, Repr

/-- Why a step fails. -/
inductive BuildFault where
  | closed (c : Findings.Closed)
  | lookup (e : Lookup.Error)
  | disk (e : DiskError)
  | listing (e : Usage.ListingError)
  | endlessRoutes
  | misfit (m : Misfit)
  deriving DecidableEq, Repr

/-- A step of a build. -/
abbrev BuildStep (α : Type) := ExceptT BuildFault (StateM Build) α

namespace Build

/-- A build that has not begun. -/
def start : Build :=
  { findings := .empty, memory := .empty, isDirty := false, notices := [] }

/-- The build without its notices, which are handed out. -/
def takeNotices (b : Build) : List Notice × Build := (b.notices, { b with notices := [] })

/-! ## Parts of steps -/

/-- Adds notices. -/
def tell (ns : List Notice) : BuildStep Unit := modify fun b => { b with notices := b.notices ++ ns }

/-- Looks up modules. -/
def look {α : Type} (question : StateM Lookup.Memory α) : BuildStep α := do
  let b ← get
  let (a, memory) := question.run b.memory
  set { b with memory := { memory with notices := [] }, notices := b.notices ++ memory.notices }
  return a

/-- Takes something into the findings. -/
def record (change : Findings → Except Findings.Closed Findings) : BuildStep Unit := do
  let b ← get
  match change b.findings with
  | .ok findings => set { b with findings }
  | .error c => throw (.closed c)

/-- Changes the findings, open or closed. -/
def modifyFindings (change : Findings → Findings) : BuildStep Unit :=
  modify fun b => { b with findings := change b.findings }

/-- Forgets what has been looked up. -/
def forgetLookups : BuildStep Unit := modify fun b => { b with memory := b.memory.forget }

/-- Says whether the route map is out of date. -/
def markDirty (isDirty : Bool) : BuildStep Unit := modify fun b => { b with isDirty }

/-- The value of an option that may be a misfit. -/
def demand {α : Type} (field : Field α) : BuildStep α :=
  match field with
  | .ok a => return a
  | .error m => throw (.misfit m)

/-- The answer of a disk. -/
def onDisk {α : Type} (answer : Except DiskError α) : BuildStep α :=
  match answer with
  | .ok a => return a
  | .error e => throw (.disk e)

/-- Takes a step whose failure is part of the answer. -/
def attempt {α : Type} (step : BuildStep α) : BuildStep (Except BuildFault α) :=
  ExceptT.lift step.run

/-- The answer of an attempt, or its failure. -/
def settle {α : Type} (result : Except BuildFault α) : BuildStep α :=
  match result with
  | .ok a => return a
  | .error e => throw e

end Build

end RouteAssets
