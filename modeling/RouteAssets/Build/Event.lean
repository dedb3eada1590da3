import RouteAssets.Build.Emission
import RouteAssets.Build.Reading

/-!
# File events

A change of one file, folded into the findings of a build. A file that holds routes or registrations
makes the build begin anew; any other script that is there is read again. What is read is added to
what is known, so an import that has gone stays until the next full run, and a deleted file only
leaves the route map out of date. Changes of the generated module are the build's own doing.
-/

namespace RouteAssets

/-- A change of a file: the word of the watcher for it, the path, and the new path if the file was
moved. -/
structure FileEvent where
  kind : String
  source : Path
  destination : Option Path
  deriving DecidableEq, Repr

namespace FileEvent

/-- The word for a file that is gone. -/
def deletion : String := "deleted"

/-- The paths that a change touches. -/
def touched (e : FileEvent) : List Path := e.source :: e.destination.toList

/-- The path at which the file is now, if it is anywhere. -/
def current (e : FileEvent) : Path := e.destination.getD e.source

/-- What is to be said about a change. -/
def notice (e : FileEvent) : Notice :=
  .fileEvent e.kind e.source.toString ((e.destination.map Path.toString).getD "")

end FileEvent

namespace Build

/-- Does a path lie directly in the router directory? -/
def isRouterFile (o : Options) (d : Disk) (p : Path) : Bool :=
  (d.resolve p).parent == d.resolve o.routerDirectory

/-- Is a path one of some registration files? The names behind the one that matches are not
looked at. -/
def isRegistration (o : Options) (d : Disk) (p : Path) : List (Field String) → Field Bool
  | [] => .ok false
  | name :: names => do
    if d.resolve p == d.resolve (o.root.joinText (← name)) then return true
    else isRegistration o d p names

/-- Does a file hold routes or registrations? -/
def isEntryFile (o : Options) (d : Disk) (p : Path) : BuildStep Bool :=
  if isRouterFile o d p then return true
  else demand (isRegistration o d p o.registrationFiles)

/-- Reads the module that a change leads to, if it is there. The disk is not asked for a file that is
gone. -/
def readCurrent (o : Options) (d : Disk) (e : FileEvent) : BuildStep Unit := do
  if e.kind != FileEvent.deletion then
    if ← onDisk (d.isFile e.current) then
      let _ ← readModule o d e.current

/-- Reads what a change touches. -/
def readChange (o : Options) (d : Disk) (e : FileEvent) : BuildStep Unit := do
  if ← e.touched.anyM (isEntryFile o d) then begin o d
  else readCurrent o d e

/-- Does a change touch nothing but the generated module? -/
def isOwnChange (o : Options) (d : Disk) (e : FileEvent) : Bool :=
  match o.generatedModule with
  | some p => e.touched.all fun q => d.resolve q == p
  | none => false

/-- Folds a change into the findings, which are closed afterwards. Unless that fails the route map is
out of date. -/
def handle (o : Options) (d : Disk) (e : FileEvent) : BuildStep Unit := do
  if isOwnChange o d e then return ()
  tell [e.notice]
  modifyFindings Findings.reopen
  forgetLookups
  let result ← attempt (readChange o d e)
  modifyFindings Findings.close
  settle result
  markDirty true

/-- The text of a virtual module of the build: only the one of the route map is known. -/
def virtualModule (o : Options) (m : ModuleId) : BuildStep (Option String) := do
  let known ← demand o.virtualModule
  return if m == known || m == "\x00" ++ known then some Emission.placeholderModule else none

end Build

end RouteAssets
