import RouteAssets.Build.Event
import RouteAssets.Command.Session

/-!
# Watching a project

After its first build a watched project goes round in a loop: it sleeps, looks whether the route map
is out of date, loads the bundle description, generates the map and writes it. A change of a file
may come between any two of these steps, and is folded into the build at once. A bundle description
that cannot be used skips one round, after which the map counts as up to date until the next change.
-/

namespace RouteAssets.Command

/-- Where the loop is: what it does next. -/
inductive Phase where
  | asleep
  | awake
  | loading
  | skipping (message : String)
  | generating (chunks : List (Chunk Json))
  | writing (m : RouteMap)

namespace Phase

open RouteAssets.Command.Session

/-- Says that the map is up to date without generating it. -/
def skip (p : Project) (message : String) : SessionStep Unit := do
  tell p.options.isVerbose [.rebuildSkipped message]
  building p (Build.markDirty false)

/-- Does what is next. -/
def advance (p : Project) : Phase → SessionStep Phase
  | asleep => return .awake
  | awake => return if (← get).build.isDirty then .loading else .asleep
  | loading => do
    match ← settle .misfit (bundleOf p (← get).disk) with
    | .ok chunks => return .generating chunks
    | .error e =>
      match e.message? with
      | some message => return .skipping message
      | none => throw (.bundle e)
  | skipping message => do
    skip p message
    return .asleep
  | generating chunks => return .writing (← building p (Build.refresh p.options chunks))
  | writing m => do
    writeOutputs p m
    return .asleep

/-- Goes on until the loop sleeps, for at most a number of steps. -/
def untilAsleep (p : Project) : Nat → Phase → SessionStep Phase
  | 0, phase => return phase
  | _, asleep => return .asleep
  | n + 1, phase => do untilAsleep p n (← advance p phase)

/-- The greatest number of steps from waking up to sleep. -/
def roundLength : Nat := 4

end Phase

namespace Session

/-- Wakes the loop up and goes on until it sleeps again. -/
def round (p : Project) : SessionStep Unit := do
  let _ ← Phase.untilAsleep p Phase.roundLength .awake

/-- Folds a change of a file into the build. -/
def change (p : Project) (e : FileEvent) : SessionStep Unit := do
  building p (Build.handle p.options (← get).disk e)

/-- Folds what a watch service passes on into the build. -/
def notify (p : Project) (e : FileEvent) (isDirectory : Bool) : SessionStep Unit :=
  match Watch.passedOn e isDirectory with
  | some e => change p e
  | none => return ()

/-- Begins to watch a project. The directory may refuse to be observed. -/
def beginWatching (p : Project) (failure : Option Watch.StartFailure) :
    SessionStep Watch.Service := do
  let service ← settle .watch (Watch.Service.ofPath (← get).disk p.root)
  let (service, notice) := service.start failure
  tell p.options.isVerbose [notice, .watching]
  return service

/-- Ends watching when the user interrupts the command. -/
def endWatching (p : Project) (service : Watch.Service) : SessionStep Watch.Service := do
  let (service, notice) := service.stop
  tell p.options.isVerbose [.interrupted, notice]
  return service

end Session

end RouteAssets.Command
