import RouteAssets.Build.Event

/-!
# Watching a directory

A watch service holds one observer at a time. An observer is scheduled on the directory, started,
and later stopped and awaited; after that, or when it could not be scheduled or started, it is of no
further use and a fresh one takes its place. So the service can be started again after every stop
and every failed start. The observers that have been replaced are kept for the record.
-/

namespace RouteAssets.Watch

/-- Something that is done with an observer. -/
inductive Deed where
  | scheduled
  | started
  | stopped
  | awaited
  deriving DecidableEq, Repr

/-- An observer, as what has been done with it, in order. -/
structure Observer where
  deeds : List Deed
  deriving DecidableEq, Repr

namespace Observer

/-- An observer with which nothing has been done. -/
def fresh : Observer := { deeds := [] }

/-- Does an observer observe after a deed, given whether it did before? -/
def aliveAfter (isAlive : Bool) : Deed → Bool
  | .started => true
  | .stopped => false
  | _ => isAlive

/-- Does the observer observe? It does from its start to its stop. -/
def isAlive (o : Observer) : Bool := o.deeds.foldl aliveAfter false

/-- The observer after another deed. -/
def after (o : Observer) (deed : Deed) : Observer := { deeds := o.deeds ++ [deed] }

end Observer

/-- What keeps an observer from starting, with the reason. -/
inductive StartFailure where
  | scheduling (reason : String)
  | starting (reason : String)
  deriving DecidableEq, Repr

/-- The reason of a failure. -/
def StartFailure.reason : StartFailure → String
  | scheduling reason => reason
  | starting reason => reason

/-- A watch service: the directory, its observer, and the observers before that one. -/
structure Service where
  directory : Path
  observer : Observer
  replaced : List Observer
  deriving DecidableEq, Repr

/-- Why a directory cannot be watched. -/
inductive ServiceError where
  | notDirectory (path : String)
  | disk (e : DiskError)
  deriving DecidableEq, Repr

/-- The text of an error that is reported. -/
def ServiceError.message? : ServiceError → Option String
  | notDirectory path => some s!"Path to watch must be a valid directory: {path}"
  | disk _ => none

namespace Service

/-- A service for a directory. -/
def ofPath (d : Disk) (p : Path) : Except ServiceError Service := do
  let directory := d.resolve p
  if ← (d.isDirectory directory).mapError .disk then
    return { directory, observer := .fresh, replaced := [] }
  else throw (.notDirectory directory.toString)

/-- Is the directory being watched? -/
def isAlive (s : Service) : Bool := s.observer.isAlive

/-- The number of observers that the service has held. -/
def observerCount (s : Service) : Nat := s.replaced.length + 1

/-- The service with a fresh observer in the place of one that is of no further use. -/
def replace (s : Service) (used : Observer) : Service :=
  { s with observer := .fresh, replaced := s.replaced ++ [used] }

/-- Starts watching, unless that fails or has happened already. -/
def start (s : Service) (failure : Option StartFailure) : Service × Notice :=
  if s.isAlive then (s, .watchRunning)
  else
    match failure with
    | some (.scheduling reason) => (s.replace s.observer, .watchFailed reason)
    | some (.starting reason) => (s.replace (s.observer.after .scheduled), .watchFailed reason)
    | none =>
      ({ s with observer := (s.observer.after .scheduled).after .started },
        .watchStarted s.directory.toString)

/-- Stops watching. -/
def stop (s : Service) : Service × Notice :=
  if s.isAlive then (s.replace ((s.observer.after .stopped).after .awaited), .watchStopped)
  else (s.replace s.observer, .watchIdle)

end Service

/-- The words for the changes that the service passes on. -/
def passedKinds : List String := ["created", "modified", FileEvent.deletion, "moved"]

/-- The event that the service passes on. Changes of directories are not passed on, and only a move
has a second path. -/
def passedOn (e : FileEvent) (isDirectory : Bool) : Option FileEvent :=
  if isDirectory || !passedKinds.contains e.kind then none
  else some { e with destination := if e.kind == "moved" then e.destination else none }

end RouteAssets.Watch
