import RouteAssets.Path
import RouteAssets.Table
import RouteAssets.Text.Order
import RouteAssets.Text.Utf8

/-!
# The project on disk

A disk maps the names that lead to a place from the root to what is there, a directory or a file. A
path is followed name by name, so a parent name leads back only from a directory that exists. There
are no links. Everything that reads from a disk is a function of it; whatever can go wrong is an
error of the path, except that asking what kind of thing a path names has "nothing" for an answer
where the path leads nowhere.
-/

namespace RouteAssets

open RouteAssets.Text

/-- What a place on a disk holds. -/
inductive Disk.Node where
  | directory
  | file (bytes : List UInt8)
  deriving DecidableEq, Repr

/-- Why a path cannot be used. -/
inductive DiskError where
  | notFound
  | notDirectory
  | isDirectory
  | alreadyThere
  | nameTooLong
  | nulInPath
  deriving DecidableEq, Repr

/-- Why the text of a file cannot be read. -/
inductive TextError where
  | disk (e : DiskError)
  | encoding
  deriving DecidableEq, Repr

/-- A disk, and the directory that relative paths start from. The root is always there. -/
structure Disk where
  nodes : Table (List String) Disk.Node
  workingDirectory : List String
  deriving DecidableEq, Repr

namespace Disk

/-! ## Following paths -/

/-- The longest name, in bytes. -/
def nameLimit : Nat := 255

/-- The longest path, in bytes. -/
def pathLimit : Nat := 4095

/-- The number of bytes of a text. -/
def byteCount (s : String) : Nat := (writeUtf8 s.toList).length

/-- What is at a place. -/
def node? (d : Disk) (place : List String) : Option Node :=
  if place.isEmpty then some .directory else d.nodes.get? place

/-- Follows names from a place. -/
def follow (d : Disk) : List String → List String → Except DiskError (List String)
  | place, [] => .ok place
  | place, n :: ns =>
    match d.node? place with
    | some .directory =>
      if n == ".." then follow d place.dropLast ns
      else if nameLimit < byteCount n then .error .nameTooLong
      else if (d.node? (place ++ [n])).isSome then follow d (place ++ [n]) ns
      else .error .notFound
    | some (.file _) => .error .notDirectory
    | none => .error .notFound

/-- The place that a path starts from. -/
def startOf (d : Disk) (p : Path) : List String :=
  if p.isAbsolute then [] else d.workingDirectory

/-- Is the text of a path one that can be looked up? -/
def checkPath (p : Path) : Except DiskError Unit :=
  if p.names.any fun n => n.toList.contains '\x00' then .error .nulInPath
  else if pathLimit < byteCount p.toString then .error .nameTooLong
  else .ok ()

/-- The place that a path names. -/
def locate (d : Disk) (p : Path) : Except DiskError (List String) := do
  checkPath p
  d.follow (d.startOf p) p.names

/-- What a path names. -/
def stat (d : Disk) (p : Path) : Except DiskError Node := do
  let place ← d.locate p
  match d.node? place with
  | some node => return node
  | none => .error .notFound

/-! ## Questions -/

/-- What a path names, when it leads anywhere. A name that is too long is an error even so. -/
def kind? (d : Disk) (p : Path) : Except DiskError (Option Node) :=
  match d.stat p with
  | .ok node => .ok (some node)
  | .error .nameTooLong => .error .nameTooLong
  | .error _ => .ok none

/-- Does a path name a file? -/
def isFile (d : Disk) (p : Path) : Except DiskError Bool :=
  (d.kind? p).map fun node =>
    match node with
    | some (.file _) => true
    | _ => false

/-- Does a path name a directory? -/
def isDirectory (d : Disk) (p : Path) : Except DiskError Bool :=
  (d.kind? p).map fun node =>
    match node with
    | some .directory => true
    | _ => false

/-- The path of the working directory. -/
def workingPath (d : Disk) : Path := { anchor := .root, names := d.workingDirectory }

/-- The absolute path without parent names that a path denotes. -/
def resolve (d : Disk) (p : Path) : Path := Path.resolve d.workingPath p

/-! ## Contents -/

/-- The bytes of a file. -/
def readBytes (d : Disk) (p : Path) : Except DiskError (List UInt8) := do
  match ← d.stat p with
  | .file bytes => return bytes
  | .directory => .error .isDirectory

/-- The text of a file, with unified line ends. -/
def readText (d : Disk) (p : Path) : Except TextError String :=
  match d.readBytes p with
  | .error e => .error (.disk e)
  | .ok bytes =>
    match readUtf8 bytes with
    | some cs => .ok (String.ofList (unifyLines cs))
    | none => .error .encoding

/-! ## Listings -/

/-- The names that lead from a place to another one inside it. -/
def relativeTo? (place inner : List String) : Option (List String) :=
  if place.isPrefixOf inner && place.length < inner.length then some (inner.drop place.length)
  else none

/-- The names that lead from a place to everything inside it, in order. -/
def inside (d : Disk) (place : List String) : List (List String) :=
  sortBy namesBefore (d.nodes.keys.filterMap (relativeTo? place))

/-- The paths of everything in a directory, at any depth, in order. -/
def descendants (d : Disk) (p : Path) : List Path :=
  match d.locate p with
  | .ok place => (d.inside place).map fun names => { p with names := p.names ++ names }
  | .error _ => []

/-- The paths of what lies directly in a directory, in order. -/
def children (d : Disk) (p : Path) : List Path :=
  (d.descendants p).filter fun q => q.names.length == p.names.length + 1

end Disk

end RouteAssets
