import RouteAssets.Build.Step
import RouteAssets.Chunk.Manifest
import RouteAssets.Imports.Dynamic
import RouteAssets.Imports.Static
import RouteAssets.Registration.Collection
import RouteAssets.Route.Files

/-!
# Reading a project

A build starts with the routes, the registrations and the listed usages of a project; then each of
its modules contributes its static imports, its dynamic imports and the dependencies it requests. A
file that cannot be read or parsed is skipped. When several modules are read together, the static
imports of all of them are looked up before the dynamic imports of any, and a module that fails does
not keep the others from being read.
-/

namespace RouteAssets.Build

open RouteAssets.Script RouteAssets.Imports RouteAssets.Text

/-! ## Routes and registrations -/

/-- Reads the routes. -/
def readRoutes (o : Options) (d : Disk) : BuildStep (List Route) := do
  let rules ← demand o.lookup
  let files ← onDisk (Route.routerFiles d (d.resolve o.routerDirectory))
  match ← look (Route.extractFiles (rules.resolver d) d .empty files) with
  | .error e =>
    tell e.notices
    throw .endlessRoutes
  | .ok found =>
    tell found.notices
    record (·.setRoutes found.routes found.imports)
    return found.routes

/-- Reads what dependencies stand for. Answers how many there are. -/
def readRegistrations (o : Options) (d : Disk) : BuildStep Nat := do
  let rules ← demand o.lookup
  let names ← o.registrationFiles.mapM demand
  let found ← look <|
    Registration.collect (rules.resolver d) (names.map (Registration.File.ofDisk d o.root))
  tell found.notices
  record (·.setLazyModules found.modules)
  return found.modules.size

/-- Reads the listed usages, if the project lists any. -/
def readUsages (o : Options) (d : Disk) : BuildStep Unit := do
  match ← demand o.usageFile with
  | none => return ()
  | some name =>
    match Usage.load d (o.root.joinText name) with
    | .error e => throw (.listing e)
    | .ok (usages, notices) =>
      tell notices
      usages.entries.forM fun (m, deps) =>
        record (·.addUsages (Chunk.describedModule o.root m) deps)

/-- Reads all that does not lie in the modules. -/
def begin (o : Options) (d : Disk) : BuildStep Unit := do
  let routes ← readRoutes o d
  let lazyCount ← readRegistrations o d
  readUsages o d
  tell [.registrationsRead routes.length lazyCount]

/-! ## Finding modules -/

/-- The directories whose contents are no sources of an application. -/
def ignoredDirectories : List String :=
  ["node_modules", "dist", ".git", ".vite", "coverage", "__tests__"]

/-- Is a path the one of a source, given the names that lead to it from the source directory? -/
def isSource (p : Path) (inside : List String) : Bool :=
  !(inside.dropLast.any ignoredDirectories.contains) && !ModuleId.isTestName p.name &&
    ModuleId.isCompiled p.toString

/-- The paths of the sources of an application, in order. -/
def discover (o : Options) (d : Disk) : BuildStep (List Path) := do
  let directory := o.sourceDirectory
  if ← onDisk (d.isDirectory directory) then
    let files ← (d.descendants directory).filterM fun p => do
      return (← onDisk (d.isFile p)) && isSource p (p.names.drop directory.names.length)
    tell [.sourcesDiscovered files.length directory.toString]
    return files
  else
    tell [.sourceDirectoryMissing directory.toString]
    return []

/-! ## Modules -/

/-- A module whose static imports have been recorded. -/
structure Opened where
  module : ModuleId
  source : Source

/-- The modules that some specifiers name. A specifier that cannot be looked up fails. -/
def staticTargets (rules : Lookup.Rules) (d : Disk) (m : ModuleId) :
    List String → BuildStep (List ModuleId)
  | [] => return []
  | s :: specifiers => do
    match ← look (rules.resolve d s m) with
    | .error e => throw (.lookup e)
    | .ok answer =>
      let rest ← staticTargets rules d m specifiers
      match (Lookup.toAnswer (.ok answer)).module? with
      | some target => return target :: rest
      | none => return rest

/-- Parses a module and records its static imports. There is none at a path that names no script, or
a script that cannot be read. -/
def openModule (o : Options) (d : Disk) (p : Path) : BuildStep (Option Opened) := do
  let path := d.resolve p
  let module := path.toString
  if !ModuleId.isCompiled module then return none
  let source ← onDisk (Source.ofFile d path)
  match source.root? with
  | none =>
    tell [.moduleSkipped module (source.reading.message?.getD "")]
    return none
  | some root =>
    let rules ← demand o.lookup
    let targets ← staticTargets rules d module (staticSpecifiers root)
    record (·.addStatic module targets)
    return some { module, source }

/-- Records the dynamic imports of a module and the dependencies it requests. -/
def finishModule (o : Options) (d : Disk) (m : Opened) : BuildStep Unit := do
  let rules ← demand o.lookup
  let (targets, notices) ← look (collectDynamic (rules.resolver d) m.source m.module o.reportsGlobs)
  tell notices
  unless targets.isEmpty do record (·.addDynamic m.module targets)
  let deps := Usage.collect m.source (← demand o.vocabulary)
  unless deps.isEmpty do record (·.addUsages m.module deps)

/-- Reads one module. Answers whether there was one to read. -/
def readModule (o : Options) (d : Disk) (p : Path) : BuildStep Bool := do
  match ← openModule o d p with
  | none => return false
  | some m =>
    finishModule o d m
    return true

/-- Reads modules together. The first failure counts, and only without one are the findings closed.
Answers how many modules there were to read. -/
def readModules (o : Options) (d : Disk) (files : List Path) : BuildStep Nat := do
  let opened ← files.mapM fun p => attempt (openModule o d p)
  let finished ← opened.mapM fun result =>
    match result with
    | .ok (some m) => attempt (finishModule o d m)
    | _ => return .ok ()
  let modules ← opened.mapM settle
  finished.forM settle
  modifyFindings Findings.close
  let count := (modules.filter Option.isSome).length
  tell [.modulesCompiled count files.length]
  return count

end RouteAssets.Build
