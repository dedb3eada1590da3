import RouteAssets.Build.Event

/-!
# Differences between two looks at a disk

Where nobody tells of changes they can be found by looking at the disk from time to time. A file
that is there only later has been created, one that is there only earlier has been deleted, and one
with other bytes has been modified; a move shows as a deletion and a creation. Only scripts count,
and none of those that are installed, emitted or merely declare types.
-/

namespace RouteAssets.Watch

open RouteAssets.Text

/-- The ends of the names of scripts. -/
def scriptEnds : List String := [".ts", ".tsx", ".js", ".jsx", ".vue"]

/-- The directories whose scripts do not count. -/
def unwatchedDirectories : List String := ["node_modules", "dist", ".git"]

/-- Does a path name a script that counts? -/
def isWatched (p : Path) : Bool :=
  scriptEnds.any (endsWith p.name ·) && !endsWith p.name ".d.ts" &&
    !p.names.dropLast.any unwatchedDirectories.contains

/-- The bytes of a script that counts, if there is one at a path. -/
def scriptBytes? (d : Disk) (p : Path) : Option (List UInt8) :=
  if isWatched p then (d.readBytes p).toOption else none

/-- What has happened to the script at a path between two looks, if anything has. -/
def differenceAt (before after : Disk) (p : Path) : Option FileEvent :=
  match scriptBytes? before p, scriptBytes? after p with
  | none, some _ => some { kind := "created", source := p, destination := none }
  | some old, some new =>
    if old == new then none else some { kind := "modified", source := p, destination := none }
  | some _, none => some { kind := FileEvent.deletion, source := p, destination := none }
  | none, none => none

/-- What has happened below a directory between two looks. -/
def differences (before after : Disk) (directory : Path) : List FileEvent :=
  let earlier := before.descendants directory
  let later := after.descendants directory
  (earlier ++ later.filter fun p => !earlier.contains p).filterMap (differenceAt before after)

end RouteAssets.Watch
