import RouteAssets.Disk.Basic
import RouteAssets.Imports.Answer
import RouteAssets.Notice
import RouteAssets.Text.Quoted

/-!
# Looking up modules

From a specifier to the module it names, as a development server would do it. An alias, a relative
path or a path from the root gives a base on disk; the module is the base itself, the base with an
extension, or the index file of the base, in this order. Any other specifier names a package, which
is a module when the directory of the package exists; what lies inside the package is not looked at.
A project without a directory of packages cannot look up packages at all.

Answers are remembered by specifier and importing directory until they are forgotten.
-/

namespace RouteAssets.Lookup

open RouteAssets.Text

/-- A name that specifiers may start with, and the directory it stands for. -/
structure Alias where
  key : String
  target : Path
  deriving DecidableEq, Repr

/-- How specifiers are looked up in a project. -/
structure Rules where
  root : Path
  aliases : List Alias
  extensions : List String
  packages : Option String
  deriving DecidableEq, Repr

/-- The extensions that are tried unless others are given. -/
def standardExtensions : List String := [".ts", ".tsx", ".js", ".jsx", ".mjs", ".vue", ".json"]

/-- Why a specifier cannot be looked up. -/
inductive Error where
  | emptyName
  | invalidName (name : String)
  | disk (e : DiskError) (path : String)
  | noPackages
  deriving DecidableEq, Repr

/-- The text of an error. -/
def Error.message : Error → String
  | emptyName => "empty name"
  | invalidName name => "Invalid name " ++ quoted name
  | disk _ path => "[Errno 36] File name too long: " ++ quoted path
  | noPackages => "no directory of packages"

/-- The identifier of the module at a path. -/
def moduleAt (p : Path) : ModuleId := p.normalize.toString

/-! ## Bases -/

/-- A specifier without its query and its fragment. -/
def bare (specifier : String) : String := upTo '#' (upTo '?' specifier)

/-- The key of an alias without slashes at its end. -/
def Alias.stem (a : Alias) : String := trimEnd '/' a.key

/-- The base that an alias gives to a specifier. -/
def Alias.base? (a : Alias) (specifier : String) : Option Path :=
  if specifier == a.stem then some a.target
  else if startsWith specifier (a.stem ++ "/") then
    some (a.target.joinText (dropFirst (a.stem.length + 1) specifier))
  else none

/-- The aliases with the longest key first. -/
def Rules.orderedAliases (r : Rules) : List Alias :=
  sortBy (fun a b => b.key.length < a.key.length) r.aliases

/-- Is the specifier relative to the importing module? -/
def isRelative (specifier : String) : Bool :=
  startsWith specifier "./" || startsWith specifier "../" || specifier == "." || specifier == ".."

/-- The bases of a specifier, in the order in which they are tried. -/
def Rules.bases (r : Rules) (specifier : String) (directory : Path) : List Path :=
  match r.orderedAliases.findSome? fun a => a.base? specifier with
  | some base => [base]
  | none =>
    if isRelative specifier then [directory.joinText specifier]
    else if startsWith specifier "/" then
      [Path.ofString specifier, r.root.joinText (trimStart '/' specifier)]
    else []

/-- Does an alias claim a specifier, so that it is no package? -/
def Rules.claims (r : Rules) (specifier : String) : Bool :=
  r.aliases.any fun a => specifier == a.key || startsWith specifier (a.stem ++ "/")

/-! ## Probing the disk -/

/-- An answer about a path, with the path in the error. -/
def onPath {α : Type} (p : Path) : Except DiskError α → Except Error α
  | .ok a => .ok a
  | .error e => .error (.disk e p.toString)

/-- The first of some paths that names a file. -/
def firstFile (d : Disk) : List (Except Error Path) → Except Error (Option Path)
  | [] => .ok none
  | .error e :: _ => .error e
  | .ok p :: ps => do
    if ← onPath p (d.isFile p) then return some p
    firstFile d ps

/-- A base with an extension added to its name. -/
def withExtension (base : Path) (extension : String) : Except Error Path :=
  match base.withName? (base.name ++ extension) with
  | some p => .ok p
  | none => .error (if base.name == "" then .emptyName else .invalidName (base.name ++ extension))

/-- The file that a base leads to. -/
def Rules.probe (r : Rules) (d : Disk) (base : Path) : Except Error (Option Path) := do
  match ← firstFile d (.ok base :: r.extensions.map (withExtension base)) with
  | some p => return some p
  | none =>
    if ← onPath base (d.isDirectory base) then
      firstFile d (r.extensions.map fun e => .ok (base.joinText ("index" ++ e)))
    else return none

/-- The file that the first of some bases with one leads to. -/
def Rules.probeAll (r : Rules) (d : Disk) : List Path → Except Error (Option Path)
  | [] => .ok none
  | base :: bases => do
    match ← r.probe d base with
    | some p => return some p
    | none => probeAll r d bases

/-- The package that a specifier names, when its directory is there. -/
def Rules.package (r : Rules) (d : Disk) (specifier : String) : Except Error (Option Path) := do
  if startsWith specifier "." || startsWith specifier "/" || r.claims specifier then return none
  match r.packages with
  | none => .error .noPackages
  | some name =>
    let packages := r.root.joinText name
    let directory := packages.joinText (ModuleId.packageName specifier)
    if ← onPath directory (d.isDirectory directory) then return some (packages.joinText specifier)
    return none

/-- The module that a specifier names for importers in a directory. -/
def Rules.find (r : Rules) (d : Disk) (specifier : String) (directory : Path) :
    Except Error (Option ModuleId) := do
  let s := bare specifier
  if s == "" || startsWith s "\x00" || startsWith s "virtual:" then return none
  match ← r.probeAll d (r.bases s directory) with
  | some p => return some (moduleAt p)
  | none => return (← r.package d s).map moduleAt

/-! ## Remembering -/

/-- What has been answered so far, and what is to be said about it. -/
structure Memory where
  answers : Table (String × String) (Option ModuleId)
  notices : List Notice
  deriving DecidableEq, Repr

/-- Nothing has been answered. -/
def Memory.empty : Memory := { answers := Table.empty, notices := [] }

/-- Forgets all answers. -/
def Memory.forget (m : Memory) : Memory := { m with answers := Table.empty }

/-- The directory of an importing module. -/
def directoryOf (importer : ModuleId) : Path := (Path.ofString importer.withoutQuery).parent

/-- The module that a specifier names for an importer. A failure is not remembered. -/
def Rules.resolve (r : Rules) (d : Disk) (specifier : String) (importer : ModuleId) :
    StateM Memory (Except Error (Option ModuleId)) := do
  let m ← get
  let directory := directoryOf importer
  let key := (specifier, directory.toString)
  match m.answers.get? key with
  | some answer => return .ok answer
  | none =>
    match r.find d specifier directory with
    | .error e => return .error e
    | .ok answer =>
      let notices := if answer.isNone then [.specifierUnresolved specifier importer] else []
      set { m with answers := m.answers.insert key answer, notices := m.notices ++ notices }
      return .ok answer

/-- What a look-up amounts to for those who collect imports. -/
def toAnswer : Except Error (Option ModuleId) → Answer
  | .ok (some m) => .found m
  | .ok none => .unknown
  | .error e => .failed e.message

/-- The look-up as a resolver. -/
def Rules.resolver (r : Rules) (d : Disk) : Resolver Memory := fun specifier importer => do
  return toAnswer (← r.resolve d specifier importer)

end RouteAssets.Lookup
