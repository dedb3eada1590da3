import RouteAssets.Disk.Basic

/-!
# Changing a disk

A change that fails leaves what it has changed so far: creating a directory with its parents may
fail behind some of the parents.
-/

namespace RouteAssets

/-- A change of a disk that may fail. -/
abbrev DiskChange (α : Type) := ExceptT DiskError (StateM Disk) α

namespace Disk

/-- Puts something at a place. -/
def put (d : Disk) (place : List String) (node : Node) : Disk :=
  { d with nodes := d.nodes.insert place node }

/-- Takes a place away, with everything in it. -/
def erase (d : Disk) (place : List String) : Disk :=
  { d with nodes := Table.ofList (d.nodes.entries.filter fun (k, _) => !place.isPrefixOf k) }

/-- The place that a path names, when its last name need not be there yet. The answer for a path
that does not end in a plain name is the place it leads to. -/
def locateNew (d : Disk) (p : Path) : Except DiskError (List String) :=
  match p.names.getLast? with
  | none => d.locate p
  | some ".." => d.locate p
  | some n => do
    checkPath p
    let place ← d.follow (d.startOf p) p.names.dropLast
    match d.node? place with
    | some .directory =>
      if nameLimit < byteCount n then .error .nameTooLong else return place ++ [n]
    | _ => .error .notDirectory

/-- Creates one directory. -/
def createDirectory (p : Path) : DiskChange Unit := do
  let d ← get
  let place ← d.locateNew p
  if (d.node? place).isSome then throw .alreadyThere
  set (d.put place .directory)

/-- Forgives a failure where the directory is there already. -/
def unlessDirectory (p : Path) (e : DiskError) : DiskChange Unit := do
  let d ← get
  if ← d.isDirectory p then return () else throw e

/-- Creates a directory unless it is there, and its parents too when they are fewer than `n`. -/
def createDirectoryUpTo : Nat → Path → DiskChange Unit
  | n, p => do
    tryCatch (createDirectory p) fun e =>
      match e, n with
      | .notFound, n + 1 => do
        if p.names.isEmpty then throw .notFound
        createDirectoryUpTo n p.parent
        tryCatch (createDirectory p) fun e =>
          if e == .notFound then throw e else unlessDirectory p e
      | .notFound, 0 => throw .notFound
      | e, _ => unlessDirectory p e

/-- Creates a directory and its parents, unless they are there. -/
def createDirectories (p : Path) : DiskChange Unit := createDirectoryUpTo p.names.length p

/-- Writes a file, over an older one. -/
def writeBytes (p : Path) (bytes : List UInt8) : DiskChange Unit := do
  let d ← get
  let place ← d.locateNew p
  match d.node? place with
  | some .directory => throw .isDirectory
  | _ => set (d.put place (.file bytes))

/-- Writes a text file. -/
def writeText (p : Path) (text : String) : DiskChange Unit :=
  writeBytes p (Text.writeUtf8 text.toList)

end Disk

end RouteAssets
