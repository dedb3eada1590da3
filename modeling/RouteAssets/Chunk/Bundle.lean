import RouteAssets.Chunk.Manifest
import RouteAssets.Disk.Basic
import RouteAssets.Json.Reader

/-!
# Bundle descriptions

The description of a bundle is a JSON file in one of two formats: an object whose member `chunks` is
a list of chunks, or a build manifest, every member of which is an object that names a file. An
empty object is a manifest.
-/

namespace RouteAssets

/-- Why there is no bundle description. The first three are reported to the user; the others are
faults that a description should not have. -/
inductive BundleError where
  | unreadable (path : String)
  | unrecognised (path : String)
  | invalidChunk (violations : List Json.Violation)
  | encoding
  | numberTooLong
  | manifest (e : Chunk.ManifestError)
  | badPath
  deriving DecidableEq, Repr

/-- The text of an error that is reported. -/
def BundleError.message? : BundleError → Option String
  | unreadable path => some s!"Could not read bundle description {path}"
  | unrecognised path => some s!"Unrecognised bundle description format in {path}"
  | invalidChunk _ => some "Invalid chunk entry"
  | _ => none

namespace Bundle

/-- The chunks of a list, with the identifiers of their modules completed. -/
def ofChunkList (root : Path) (items : List Json) : Except BundleError (List (Chunk Json)) :=
  items.mapM fun j =>
    match Chunk.ofJson j with
    | .ok c =>
      .ok { c.mapStyles Json.string with modules := c.modules.map (Chunk.describedModule root) }
    | .error vs => .error (.invalidChunk vs)

/-- Does every member name a file? -/
def isManifest (members : List (String × Json)) : Bool :=
  members.all fun (_, value) => (value.member? "file").isSome

/-- The chunks that a value describes. -/
def ofJson (path : String) (root : Path) (j : Json) : Except BundleError (List (Chunk Json)) :=
  match j with
  | .object members =>
    match Table.lookup "chunks" members with
    | some (.array items) => ofChunkList root items
    | _ =>
      if isManifest members then (Chunk.ofManifest root members).mapError .manifest
      else .error (.unrecognised path)
  | _ => .error (.unrecognised path)

/-- The chunks that a text describes. -/
def ofText (path : String) (root : Path) (text : String) : Except BundleError (List (Chunk Json)) :=
  match Json.read text with
  | .ok j => ofJson path root j
  | .error .malformed => .error (.unreadable path)
  | .error .numberTooLong => .error .numberTooLong

/-- The chunks that a file describes. -/
def load (d : Disk) (path root : Path) : Except BundleError (List (Chunk Json)) :=
  match d.readText path with
  | .ok text => ofText path.toString (d.resolve root) text
  | .error .encoding => .error .encoding
  | .error (.disk .nulInPath) => .error .badPath
  | .error (.disk _) => .error (.unreadable path.toString)

end Bundle

end RouteAssets
