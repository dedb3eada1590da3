import RouteAssets.Command.Watching
import RouteAssets.Watch.Difference

/-!
# The program

Looks at the disk, lets the command work on what it sees, writes back what has changed, and prints
what is to be shown. It sees the working directory, the project and the places that the command line
names, each with everything in it, and takes all other places to be empty. Whoever watches a project
looks at it once a second.
-/

namespace RouteAssets.Main

open RouteAssets.Command

/-! ## Looking at the disk -/

/-- Puts what is at a place, and all that is in it, onto a disk. Links are not followed. -/
partial def look (d : Disk) (place : String) : IO Disk := do
  let location ← IO.FS.realPath place
  let names := Path.namesOf place.toList
  if (d.node? names).isSome && !names.isEmpty then return d
  match (← location.symlinkMetadata).type with
  | .file =>
    let bytes ← IO.FS.readBinFile location
    return d.put names (.file bytes.toList)
  | .dir =>
    let mut seen := if names.isEmpty then d else d.put names .directory
    for entry in ← location.readDir do
      seen ← look seen entry.path.toString
    return seen
  | _ => return d

/-- Puts the directories that lead to a place onto a disk. -/
def leadTo (d : Disk) (names : List String) : Disk :=
  ((Disk.createDirectories { anchor := .root, names }).run d).2

/-- Looks at a place if there is anything. -/
def lookAt (d : Disk) (p : Path) : IO Disk := do
  let names := (d.resolve p).names
  let place := "/" ++ Text.joinWith "/" names
  try
    let location ← IO.FS.realPath place
    if ← location.pathExists then look (leadTo d names.dropLast) place else return d
  catch _ => return d

/-- The paths that the command line names. -/
def namedPaths (args : List String) : List Path :=
  match Request.ofArguments args with
  | .build a =>
    ([some a.root, a.config, a.bundle, a.outDirectory].filterMap id).map Path.ofString
  | _ => []

/-- Looks at the working directory and at the places that the command line names. -/
def survey (args : List String) : IO Disk := do
  let working := Path.ofString (← IO.currentDir).toString
  let empty : Disk := { nodes := Table.empty, workingDirectory := working.names }
  (working :: namedPaths args).foldlM lookAt empty

/-! ## Writing back -/

/-- Writes to the disk what has been put at a place. -/
def store (place : List String) (node : Disk.Node) : IO Unit := do
  let text := "/" ++ Text.joinWith "/" place
  match node with
  | .directory => IO.FS.createDirAll text
  | .file bytes => IO.FS.writeBinFile text ⟨bytes.toArray⟩

/-- Writes to the disk what has changed. -/
def save (before after : Disk) : IO Unit :=
  after.nodes.entries.forM fun (place, node) =>
    if before.node? place == some node then pure () else store place node

/-- Prints what is to be shown, and forgets it. -/
def print (s : Session) : IO Session := do
  s.output.forM fun n => IO.println n.message
  (← IO.getStdout).flush
  return { s with output := [] }

/-- Takes a step of a session, whose changes are written and whose notices are printed even when it
fails. -/
def take {α : Type} (step : SessionStep α) (s : Session) : IO (Except Failure α × Session) := do
  let (result, t) := step.run s
  save s.disk t.disk
  return (result, ← print t)

/-! ## Running the command -/

/-- How the command is used. -/
def usage : String :=
  "usage: route-assets [-h] [--config CONFIG] [--bundle BUNDLE] [--out-dir OUT_DIR] [--verbose] " ++
    "[--watch] project_root"

/-- Tells of a failure without a report. -/
def breakOff (f : Failure) : IO UInt32 := do
  IO.eprintln (reprStr f)
  return 1

/-- Goes round with the loop that watches a project, until a step fails. -/
partial def watch (args : List String) (p : Project) (s : Session) : IO UInt32 := do
  IO.sleep 1000
  let now ← survey args
  let events := Watch.differences s.disk now p.root
  let step : SessionStep Unit := do
    events.forM fun e => Session.notify p e false
    Session.round p
  match ← take step { s with disk := now } with
  | (.ok _, s) => watch args p s
  | (.error f, _) => breakOff f

/-- Runs the command. -/
def run (args : List String) : IO UInt32 := do
  match ← take (Session.run args) (.start (← survey args)) with
  | (.error f, _) => breakOff f
  | (.ok ending, s) =>
    match ending with
    | .help => IO.println usage
    | .misuse => IO.eprintln usage
    | .reported message => IO.eprintln ("Error: " ++ message)
    | .built => pure ()
    | .watching p =>
      match ← take (Session.beginWatching p none) s with
      | (.ok _, s) => return ← watch args p s
      | (.error f, _) => return ← breakOff f
    return ending.status.toUInt32

end RouteAssets.Main

/-- The program. -/
def main (args : List String) : IO UInt32 := RouteAssets.Main.run args
