import RouteAssets.Chunk.Basic
import RouteAssets.Table
import RouteAssets.Text.Order

/-!
# From modules to files

Where a bundle puts modules: the chunk of each module, and the style sheets of each chunk. A route
that needs some modules needs the files of their chunks, each with its style sheets. The files of a
route are listed in order, without repetition.
-/

namespace RouteAssets

open RouteAssets.Text

/-- The files that every route needs, by full path. -/
abbrev RouteMap := Table String (List FileName)

namespace Chunk

variable {α : Type}

/-- The chunk of each module; of several chunks with one module the last counts. -/
def chunkByModule (cs : List (Chunk α)) : Table ModuleId FileName :=
  Table.ofList (cs.flatMap fun c => c.modules.map fun m => (m, c.file))

/-- The style sheets of each chunk that has any; of several chunks with one file the last counts. -/
def stylesByChunk (cs : List (Chunk α)) : Table FileName (List α) :=
  Table.ofList ((cs.filter fun c => !c.styles.isEmpty).map fun c => (c.file, c.styles))

/-- The files that one module needs. A module without a chunk, or in one without a name, needs
none. -/
def filesOf (byModule : Table ModuleId FileName) (styles : Table FileName (List FileName))
    (m : ModuleId) : List FileName :=
  match byModule.get? m with
  | none => []
  | some "" => []
  | some file => file :: styles.getD file []

/-- The files of each route, given the modules it needs. -/
def routeFiles (needed : Table String (List ModuleId)) (byModule : Table ModuleId FileName)
    (styles : Table FileName (List FileName)) : RouteMap :=
  needed.map fun _ modules => sortedSet (modules.flatMap (filesOf byModule styles))

end Chunk

end RouteAssets
