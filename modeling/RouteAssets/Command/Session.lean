import RouteAssets.Build.Emission
import RouteAssets.Build.Generation
import RouteAssets.Command.Arguments
import RouteAssets.Command.Failure

/-!
# Sessions of the command

A session works on a disk, keeps the state of a build, and collects what is to be shown. The command
line is written over the configuration; then one build reads the project and its bundle, generates
the route map and writes it wherever the configuration wants it. What a failing step has done until
then, on disk and in what is shown, stays done.
-/

namespace RouteAssets.Command

open RouteAssets.Config

/-- The state of a session. -/
structure Session where
  disk : Disk
  build : Build
  output : List Notice
  deriving DecidableEq, Repr

/-- A step of a session. -/
abbrev SessionStep (α : Type) := ExceptT Failure (StateM Session) α

/-- A session that has not begun. -/
def Session.start (d : Disk) : Session := { disk := d, build := .start, output := [] }

/-- A project as the command line and the configuration describe it. -/
structure Project where
  root : Path
  config : Config
  options : Options

namespace Session

/-! ## Parts of steps -/

/-- Shows notices, all of them or only those that nobody may miss. -/
def tell (isVerbose : Bool) (ns : List Notice) : SessionStep Unit :=
  modify fun s => { s with output := s.output ++ Notice.shown isVerbose ns }

/-- The answer to a question, or the failure that a fault of it is. -/
def settle {ε α : Type} (failure : ε → Failure) (answer : Except ε α) : SessionStep α :=
  match answer with
  | .ok a => return a
  | .error e => throw (failure e)

/-- Takes a step of the build, and shows what it tells. -/
def building {α : Type} (p : Project) (step : BuildStep α) : SessionStep α := do
  let (result, build) := step.run (← get).build
  let (notices, build) := build.takeNotices
  modify fun s => { s with build }
  tell p.options.isVerbose notices
  settle .build result

/-- Takes a step of emitting. -/
def emitting {α : Type} (step : EmissionStep α) : SessionStep α := do
  let (result, disk) := step.run (← get).disk
  modify fun s => { s with disk }
  settle .emission result

/-! ## The command line and the configuration -/

/-- The configuration with a setting written into one of its parts, which is a mapping. -/
def withSetting (part name : String) (s : Setting) (c : Config) : Field Config :=
  match Setting.lookup (.text part) c with
  | some (.mapping _) => .ok (Setting.merge c [(.text part, .named [(name, s)])])
  | _ => .error .wrongKind

/-- The configuration with the text of an absolute path written into it, if there is a path. -/
def withPath (d : Disk) (part name : String) (path : Option String) (c : Config) : Field Config :=
  match path with
  | some path => withSetting part name (.text (d.resolve (Path.ofString path)).toString) c
  | none => .ok c

/-- The configuration with the arguments written over it. -/
def withArguments (d : Disk) (a : Arguments) (c : Config) : Field Config := do
  let c ← withPath d "general" "project_root" (some a.root) c
  let c ← if a.isVerbose then withSetting "general" "verbose" (.truth true) c else .ok c
  let c ← withPath d "output" "bundle_description" a.bundle c
  withPath d "output" "out_dir" a.outDirectory c

/-- Loads the configuration that the arguments ask for. -/
def configure (a : Arguments) : SessionStep Config := do
  let d := (← get).disk
  let loaded ← settle .config (Config.load d (a.config.map Path.ofString))
  tell a.isVerbose loaded.notices
  settle .misfit (withArguments d a loaded.config)

/-- Opens the project at a root. -/
def openProject (root : String) (c : Config) : SessionStep Project := do
  let d := (← get).disk
  let root := d.resolve (Path.ofString root)
  return { root, config := c, options := ← settle .options (Options.load d root c) }

/-! ## Building and writing -/

/-- A path that the outputs of a project must name. -/
def outputPath (p : Project) (name : String) : Field Path := do
  match value? (← section? p.config "output") name with
  | some s => return p.root.under (← s.asText)
  | none => .error .wrongKind

/-- The path of the generated module, if the project wants one. -/
def modulePath? (p : Project) : Field (Option Path) := do
  match value? (← section? p.config "output") "generated_module_path" with
  | some s => return some (p.root.under (← s.asText))
  | none => return none

/-- The name of the JSON file. -/
def assetName (p : Project) : Field String := do
  (valueOr (← section? p.config "output") "asset_file_name" .null).asText

/-- The number of files in a route map. -/
def fileCount (m : RouteMap) : Nat := m.values.flatten.length

/-- Writes a route map wherever the project wants it. -/
def writeOutputs (p : Project) (m : RouteMap) : SessionStep Unit := do
  let isVerbose := p.options.isVerbose
  let directory ← settle .misfit (outputPath p "out_dir")
  let asset ← emitting (Emission.writeAsset m directory (← settle .misfit (assetName p)))
  let patched ← emitting (Emission.patch m directory)
  tell isVerbose patched.notices
  if let some path ← settle .misfit (modulePath? p) then
    let _ ← emitting (Emission.writeModule m path)
    tell isVerbose [.moduleWritten path.toString]
  tell isVerbose [.mapWritten m.size (fileCount m) asset.toString]
  unless patched.files.isEmpty do tell isVerbose [.placeholdersReplaced patched.files.length]

/-- The chunks of the bundle of a project. -/
def bundleOf (p : Project) (d : Disk) : Field (Except BundleError (List (Chunk Json))) := do
  return Bundle.load d (← outputPath p "bundle_description") p.root

/-- Builds a project once. -/
def buildOnce (p : Project) : SessionStep Unit := do
  let d := (← get).disk
  let chunks ← settle .bundle (← settle .misfit (bundleOf p d))
  writeOutputs p (← building p (Build.run p.options d chunks))

/-! ## The whole command -/

/-- How the command ends, unless it fails: with help, because it has not been understood, with a
report, in success, or by watching a project that has been built. -/
inductive Ending where
  | help
  | misuse
  | reported (message : String)
  | built
  | watching (p : Project)

/-- The exit status of an ending. -/
def Ending.status : Ending → Nat
  | help => 0
  | misuse => 2
  | reported _ => 1
  | built => 0
  | watching _ => 0

/-- Turns a failure that has a report into an ending. -/
def reporting (step : SessionStep Ending) : SessionStep Ending :=
  tryCatch step fun f =>
    match f.report? with
    | some message => return .reported message
    | none => throw f

/-- Follows arguments that ask for a build. Only what comes after the configuration is reported. -/
def follow (a : Arguments) : SessionStep Ending := do
  let config ← configure a
  reporting do
    let p ← openProject a.root config
    buildOnce p
    return if a.isWatching then .watching p else .built

/-- Does what the command line asks for. -/
def run (args : List String) : SessionStep Ending :=
  match Request.ofArguments args with
  | .help => return .help
  | .misuse => return .misuse
  | .build a => follow a

end Session

end RouteAssets.Command
