import RouteAssets.Chunk.Placement
import RouteAssets.Disk.Change
import RouteAssets.Json.Writer
import RouteAssets.Notice

/-!
# Emitting the route map

The route map leaves a build in three forms: a JSON file beside the bundle, a generated module, and
in place of a quoted placeholder inside the emitted scripts. A bundle is made before its own map is
known, so the virtual module of the map holds the placeholder at first.
-/

namespace RouteAssets

open RouteAssets.Text

namespace RouteMap

/-- The JSON form of a route map. -/
def toJson (m : RouteMap) : Json :=
  .object (m.entries.map fun (route, files) => (route, .array (files.map .string)))

end RouteMap

/-- A step of emitting: it changes the disk and may fail on a path or on the text of a file. -/
abbrev EmissionStep (α : Type) := ExceptT TextError (StateM Disk) α

namespace Emission

/-! ## Texts -/

/-- What stands for the route map until it is known. -/
def placeholder : String := "__ROUTE_DEPS_MAP_PLACEHOLDER__"

/-- The placeholder between its quotation marks. -/
def quotedPlaceholder : String := "\"" ++ placeholder ++ "\""

/-- The virtual module before the map is known. -/
def placeholderModule : String := "export default " ++ quotedPlaceholder ++ ";"

/-- The generated module of a route map. -/
def moduleText (m : RouteMap) : String := "export default " ++ m.toJson.pretty ++ ";\n"

/-- A script with the map in place of every quoted placeholder. -/
def inject (code : String) (m : RouteMap) : String :=
  String.ofList (replaceFrom quotedPlaceholder.toList m.toJson.compact.toList 0 code.toList)

/-! ## Files -/

/-- A change of the disk as a step of emitting. -/
def change {α : Type} (c : DiskChange α) : EmissionStep α := do
  match c.run (← get) with
  | (.ok a, d) => set d; return a
  | (.error e, d) => set d; throw (.disk e)

/-- A question to the disk as a step of emitting. -/
def ask {α : Type} (question : Disk → Except DiskError α) : EmissionStep α := do
  match question (← get) with
  | .ok a => return a
  | .error e => throw (.disk e)

/-- Writes a text file, with the directories it needs. -/
def writeWithParents (p : Path) (text : String) : EmissionStep Unit := do
  change (Disk.createDirectories p.parent)
  change (Disk.writeText p text)

/-- Writes the JSON file of a route map. The answer is its path. -/
def writeAsset (m : RouteMap) (directory : Path) (fileName : String) : EmissionStep Path := do
  let p := directory.joinText fileName
  writeWithParents p m.toJson.pretty
  return p

/-- Writes the generated module of a route map, unless it is there with the same text, so that
nobody who watches the file is told of a change. Answers whether it was written. -/
def writeModule (m : RouteMap) (p : Path) : EmissionStep Bool := do
  let text := moduleText m
  if ← ask (·.isFile p) then
    match (← get).readText p with
    | .error e => throw e
    | .ok old => if old == text then return false
  writeWithParents p text
  return true

/-! ## Emitted scripts -/

/-- What patching has done: the scripts that were changed, and notices. -/
structure Patched where
  files : List Path
  notices : List Notice
  deriving DecidableEq, Repr

/-- Puts the map into one emitted script. A script that cannot be read stays as it is, and so does
one without the placeholder. -/
def patchFile (m : RouteMap) (done : Patched) (p : Path) : EmissionStep Patched := do
  match (← get).readText p with
  | .error _ => return { done with notices := done.notices ++ [.chunkUnreadable p.toString] }
  | .ok code =>
    if contains code placeholder then
      change (Disk.writeText p (inject code m))
      return {
        files := done.files ++ [p]
        notices := done.notices ++ [.chunkPatched p.toString] }
    else return done

/-- The emitted scripts below a directory, in order. -/
def emittedScripts (d : Disk) (directory : Path) : List Path :=
  (d.descendants directory).filter fun p => endsWith p.name ".js"

/-- Puts the map into the emitted scripts below a directory. -/
def patch (m : RouteMap) (directory : Path) : EmissionStep Patched := do
  if ← ask (·.isDirectory directory) then
    (emittedScripts (← get) directory).foldlM (patchFile m) { files := [], notices := [] }
  else return { files := [], notices := [] }

end Emission

end RouteAssets
