import RouteAssets.Disk.Basic
import RouteAssets.Route.Resolution
import RouteAssets.Text.Order

/-!
# Router files

The routes of an application are defined in the scripts that lie directly in its router directory,
tests and declarations excepted. They are taken in order of their paths; of two bindings of one name
the later counts. A file that cannot be read or parsed is skipped.
-/

namespace RouteAssets.Route

open RouteAssets.Script RouteAssets.Text

/-- The extensions of router files. -/
def fileExtensions : List String := [".ts", ".js", ".tsx", ".jsx"]

/-- Can a file of this name define routes? -/
def isRouterName (name : String) : Bool :=
  fileExtensions.any (endsWith name) && !ModuleId.isTestName name

/-- The paths of the router files in a directory, in order. -/
def routerFiles (d : Disk) (directory : Path) : Except DiskError (List Path) := do
  if ← d.isDirectory directory then
    (d.children directory).filterM fun p => do
      return isRouterName p.name && (← d.isFile p)
  else return []

end RouteAssets.Route

namespace RouteAssets.Script.Source

/-- The script that a file holds. A file of unknown kind is read as a plain script. -/
def ofFile (d : Disk) (p : Path) : Except DiskError Source :=
  let kind := (FileKind.ofPath? p.toString).getD (.script .javascript)
  match d.readText p with
  | .ok text => .ok (readKind kind text)
  | .error (.disk .nulInPath) => .error .nulInPath
  | .error _ => .ok (unreadable kind)

end RouteAssets.Script.Source

namespace RouteAssets.Route

open RouteAssets.Script

/-- Nothing has been read. -/
def Extraction.empty : Extraction := { routes := [], imports := Table.empty, notices := [] }

/-- What one router file adds. -/
def extractFile {σ : Type} (resolve : Resolver σ) (d : Disk) (p : Path) :
    StateM σ (Except Endless Extraction) :=
  match Source.ofFile d p with
  | .error _ => pure (.ok .empty)
  | .ok source =>
    match source.reading.message? with
    | some reason =>
      pure (.ok { Extraction.empty with notices := [.routerFileSkipped p.toString reason] })
    | none => extract resolve source p.toString

/-- Takes in what comes later. -/
def Extraction.append (known later : Extraction) : Extraction :=
  { routes := known.routes ++ later.routes
    imports := known.imports.merge later.imports
    notices := known.notices ++ later.notices }

/-- Takes in some router files after those that are known. -/
def extractFiles {σ : Type} (resolve : Resolver σ) (d : Disk) (known : Extraction) :
    List Path → StateM σ (Except Endless Extraction)
  | [] => pure (.ok known)
  | p :: ps => do
    match ← extractFile resolve d p with
    | .error e => return .error { notices := known.notices ++ e.notices }
    | .ok e => extractFiles resolve d (known.append e) ps

end RouteAssets.Route
