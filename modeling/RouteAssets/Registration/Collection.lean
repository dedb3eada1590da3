import RouteAssets.Disk.Basic
import RouteAssets.Imports.Answer
import RouteAssets.Notice
import RouteAssets.Registration.Entry

/-!
# Lazily loaded dependencies

The registration texts of a project, taken in order, say which module is loaded when a dependency is
requested. Of several lazy entries with a module the last one counts; a text that cannot be read and
a specifier without a module count for nothing.
-/

namespace RouteAssets.Registration

/-- A registration file: the path it was asked for by, the module it is, and its text if it can be
read. -/
structure File where
  path : String
  module : ModuleId
  code : Option String
  deriving DecidableEq, Repr

/-- The registration file that a project names. -/
def File.ofDisk (d : Disk) (root : Path) (path : String) : File :=
  let p := d.resolve (root.joinText path)
  { path, module := p.toString, code := (d.readText p).toOption }

/-- A lazy entry: a dependency and the specifier of its module. -/
structure Lazy where
  depId : DepId
  specifier : String
  deriving DecidableEq, Repr

/-- The lazy entries of a registration text. -/
def lazyEntries (code : String) : List Lazy :=
  (entries code).filterMap fun e =>
    match e.specifier with
    | some "" => none
    | some specifier => some { depId := e.depId, specifier }
    | none => none

/-- What dependencies stand for, with notices. -/
structure Collected where
  modules : Table DepId ModuleId
  notices : List Notice
  deriving DecidableEq, Repr

/-- Writes the modules of some entries over those known before. -/
def writeModules (known : Table DepId ModuleId) (es : List Lazy) (answers : List Answer) :
    Table DepId ModuleId :=
  (es.zip answers).foldl
    (fun table (e, a) =>
      match a.module? with
      | some m => table.insert e.depId m
      | none => table)
    known

/-- What is to be said about a file with lazy entries. -/
def fileNotices (file : File) (es : List Lazy) (answers : List Answer) : List Notice :=
  let found := if es.isEmpty then [] else [Notice.registrationsFound es.length file.path]
  let failures := (es.zip answers).filterMap fun (e, a) =>
    match a with
    | .failed reason => some (.registrationImportFailed e.specifier file.module reason)
    | _ => none
  let unresolved := (es.zip answers).filterMap fun (e, a) =>
    if a.module?.isNone then some (.registrationUnresolved e.specifier e.depId) else none
  found ++ failures ++ unresolved

/-- Takes in one more registration file. -/
def collectFile {σ : Type} (resolve : Resolver σ) (known : Collected) (file : File) :
    StateM σ Collected :=
  match file.code with
  | none =>
    pure { known with notices := known.notices ++ [.registrationFileUnreadable file.module] }
  | some code => do
    let es := lazyEntries code
    let answers ← askAll resolve file.module (es.map Lazy.specifier)
    return {
      modules := writeModules known.modules es answers
      notices := known.notices ++ fileNotices file es answers }

/-- What dependencies stand for according to some registration files. -/
def collect {σ : Type} (resolve : Resolver σ) (files : List File) : StateM σ Collected := do
  let c ← files.foldlM (collectFile resolve) { modules := Table.empty, notices := [] }
  return { c with notices := c.notices ++ [.registrationsParsed c.modules.size] }

end RouteAssets.Registration
