import RouteAssets.Disk.Basic
import RouteAssets.Notice
import RouteAssets.Yaml.Reader

/-!
# Loading a configuration

The configuration of a project is the standard one with the settings of a YAML file written over it.
The file is the one that was asked for or, if none was, the first of the usual names in the working
directory that names a file. A file that is missing, no YAML, or no mapping changes nothing, and the
user is told so whatever else is shown.
-/

namespace RouteAssets.Config

/-- The names of configuration files, in the order in which they are looked for. -/
def usualNames : List String := ["route_deps.yaml", "route_deps.yml"]

/-- Why no configuration can be made. -/
inductive LoadError where
  | encoding
  | disk (e : DiskError)
  | value (f : Yaml.Fault)
  deriving DecidableEq, Repr

/-- A configuration, and what is to be said about it. -/
structure Loaded where
  config : Config
  notices : List Notice
  deriving Repr

/-- The standard configuration with the settings of a file. -/
def ofSetting (path : Path) : Setting → Loaded
  | .mapping entries =>
    { config := Setting.merge standard entries, notices := [.configLoaded path.toString] }
  | .scalar .null => { config := standard, notices := [.configLoaded path.toString] }
  | _ =>
    { config := standard
      notices := [.configNotMapping path.toString, .configLoaded path.toString] }

/-- The configuration that a text describes. -/
def ofText (path : Path) (text : String) : Except LoadError Loaded :=
  match Setting.ofYaml text with
  | .ok s => .ok (ofSetting path s)
  | .error .malformed =>
    .ok { config := standard, notices := [.configMalformed path.toString] }
  | .error f => .error (.value f)

/-- The configuration that a file describes. -/
def ofFile (d : Disk) (path : Path) : Except LoadError Loaded :=
  match d.readText path with
  | .ok text => ofText path text
  | .error .encoding => .error .encoding
  | .error (.disk e) => .error (.disk e)

/-- The configuration file in the working directory, if there is one. -/
def usualFile? (d : Disk) : List String → Except DiskError (Option Path)
  | [] => .ok none
  | name :: names => do
    let path := d.workingPath.joinText name
    if ← d.isFile path then return some path else usualFile? d names

/-- The configuration of a project, given the file that was asked for. -/
def load (d : Disk) (asked : Option Path) : Except LoadError Loaded := do
  match asked with
  | some path =>
    if ← (d.isFile path).mapError .disk then ofFile d path
    else return { config := standard, notices := [.configMissing path.toString] }
  | none =>
    match ← (usualFile? d usualNames).mapError .disk with
    | some path => ofFile d path
    | none => return { config := standard, notices := [.configStandard] }

end RouteAssets.Config
