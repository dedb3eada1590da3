/-!
# Notices

What a run reports beside its results. Every part of the library returns its notices as data, in the
order in which they arise; whoever runs it decides whether all of them are shown or only those that
nobody may miss. The wording is fixed here and nowhere else.
-/

namespace RouteAssets

/-- Something worth telling about a build. -/
inductive Notice where
  | computedImport (module : String) (line : Nat)
  | globNotExpanded (method module : String)
  | dynamicImportFailed (specifier importer reason : String)
  | dynamicImportUnresolved (specifier importer : String)
  | usageFileUnreadable (path : String)
  | usageFileNotObject (path : String)
  | walked (entry : String) (visited targets : Nat)
  | routeWithoutEntry (fullPath : String)
  | chunksExpanded (route : String) (listed all : Nat)
  | chunksMatched (patterns files : String)
  | routeImportFailed (specifier importer reason : String)
  | routeUnresolved (fullPath importer : String)
  | routesFound (count : Nat) (importer : String)
  | routerFileSkipped (path reason : String)
  | specifierUnresolved (specifier importer : String)
  | chunkUnreadable (path : String)
  | chunkPatched (path : String)
  | sourceDirectoryMissing (path : String)
  | sourcesDiscovered (count : Nat) (path : String)
  | registrationsRead (routes lazyDeps : Nat)
  | moduleSkipped (module reason : String)
  | modulesCompiled (compiled all : Nat)
  | mapGenerated (routes : Nat)
  | fileEvent (kind source destination : String)
  | registrationImportFailed (specifier importer reason : String)
  | registrationFileUnreadable (path : String)
  | registrationsFound (count : Nat) (path : String)
  | registrationUnresolved (specifier depId : String)
  | registrationsParsed (count : Nat)
  | configLoaded (path : String)
  | configNotMapping (path : String)
  | configMalformed (path : String)
  | configMissing (path : String)
  | configStandard
  | watchStarted (path : String)
  | watchRunning
  | watchFailed (reason : String)
  | watchIdle
  | watchStopped
  | watching
  | rebuildSkipped (reason : String)
  | interrupted
  | moduleWritten (path : String)
  | mapWritten (routes files : Nat) (path : String)
  | placeholdersReplaced (count : Nat)
  deriving DecidableEq, Repr

namespace Notice

/-- The text of a notice. -/
def message : Notice → String
  | computedImport module line =>
    s!"DynamicImportCollector: Skipping computed import() at {module}:{line}"
  | globNotExpanded method module =>
    s!"DynamicImportCollector: Found import.meta.{method} in {module}, not expanded"
  | dynamicImportFailed specifier importer reason =>
    s!"DynamicImportCollector Warning: Failed to resolve {specifier} from {importer}: {reason}"
  | dynamicImportUnresolved specifier importer =>
    s!"DynamicImportCollector: Unresolved dynamic import '{specifier}' in {importer}"
  | usageFileUnreadable path => s!"IocUsageCollector Warning: Could not load IoC deps file {path}"
  | usageFileNotObject path =>
    s!"IocUsageCollector Warning: IoC deps file {path} is not a JSON object."
  | walked entry visited targets =>
    s!"GraphWalk: Walk from {entry}: visited {visited} modules, found {targets} dynamic targets"
  | routeWithoutEntry fullPath => s!"GraphWalk Warning: Route {fullPath} has no entry module"
  | chunksExpanded route listed all => s!"ChunkMapper: Route {route}: {listed} -> {all} chunks"
  | chunksMatched patterns files => s!"ChunkMapper: Chunks matching patterns {patterns}: {files}"
  | routeImportFailed specifier importer reason =>
    s!"RouterExtractor Warning: Failed to resolve {specifier} from {importer}: {reason}"
  | routeUnresolved fullPath importer =>
    s!"RouterExtractor: Route {fullPath} in {importer} has no resolvable component"
  | routesFound count importer => s!"RouterExtractor: Found {count} routes in {importer}"
  | routerFileSkipped path reason => s!"RouterExtractor Warning: Failed to parse {path}: {reason}"
  | specifierUnresolved specifier importer =>
    s!"ImportResolver: Could not resolve '{specifier}' from {importer}"
  | chunkUnreadable path => s!"Emitter Warning: Could not read {path}"
  | chunkPatched path => s!"Emitter: Replaced placeholder in {path}"
  | sourceDirectoryMissing path =>
    s!"RouteDepsBuilder Warning: Source directory {path} does not exist."
  | sourcesDiscovered count path =>
    s!"RouteDepsBuilder: Discovered {count} source files under {path}"
  | registrationsRead routes lazyDeps =>
    s!"RouteDepsBuilder: build_start found {routes} routes and {lazyDeps} dynamic IoC deps"
  | moduleSkipped module reason => s!"RouteDepsBuilder Warning: Skipping {module}: {reason}"
  | modulesCompiled compiled all => s!"RouteDepsBuilder: Compiled {compiled} of {all} modules"
  | mapGenerated routes => s!"RouteDepsBuilder: Generated map for {routes} routes"
  | fileEvent kind source destination =>
    let suffix := if destination == "" then "" else " -> " ++ destination
    s!"RouteDepsBuilder: File event '{kind}' for {source}{suffix}"
  | registrationImportFailed specifier importer reason =>
    s!"IocMapParser Warning: Failed to resolve {specifier} from {importer}: {reason}"
  | registrationFileUnreadable path => s!"IocMapParser Warning: Failed to read IoC map file {path}"
  | registrationsFound count path =>
    s!"IocMapParser: Found {count} dynamic deps entries in {path}"
  | registrationUnresolved specifier depId =>
    s!"IocMapParser: Could not resolve {specifier} for {depId}"
  | registrationsParsed count => s!"IocMapParser: Parsed IoC maps, {count} dynamic deps"
  | configLoaded path => s!"ConfigLoader: Loaded configuration from {path}"
  | configNotMapping path =>
    s!"ConfigLoader Warning: {path} does not contain a mapping. Using defaults."
  | configMalformed path => s!"ConfigLoader Warning: Error parsing YAML config file {path}"
  | configMissing path => s!"ConfigLoader Warning: Config file {path} not found. Using defaults."
  | configStandard =>
    "ConfigLoader Info: No user config file provided or found in default locations. " ++
      "Using built-in defaults."
  | watchStarted path =>
    s!"FileWatcherService: Started watching directory '{path}' for script changes."
  | watchRunning => "FileWatcherService: Observer is already running."
  | watchFailed reason => s!"FileWatcherService: Error starting observer: {reason}"
  | watchIdle => "FileWatcherService: Observer is not running."
  | watchStopped => "FileWatcherService: Stopped watching."
  | watching => "Watching for changes. Press Ctrl+C to stop."
  | rebuildSkipped reason => s!"Skipping rebuild: {reason}"
  | interrupted => "\nKeyboard interrupt received."
  | moduleWritten path => s!"Wrote generated module {path}"
  | mapWritten routes files path => s!"Route deps map: {routes} routes, {files} files -> {path}"
  | placeholdersReplaced count => s!"Replaced map placeholder in {count} chunk(s)"

/-- Is a notice shown even to those who ask for few? -/
def isAlwaysShown : Notice → Bool
  | configNotMapping _ => true
  | configMalformed _ => true
  | configMissing _ => true
  | watchStarted _ => true
  | watchRunning => true
  | watchFailed _ => true
  | watchIdle => true
  | watchStopped => true
  | watching => true
  | rebuildSkipped _ => true
  | interrupted => true
  | moduleWritten _ => true
  | mapWritten _ _ _ => true
  | placeholdersReplaced _ => true
  | _ => false

/-- The notices to show, given whether all are asked for. -/
def shown (verbose : Bool) (ns : List Notice) : List Notice :=
  ns.filter fun n => verbose || n.isAlwaysShown

end Notice

end RouteAssets
