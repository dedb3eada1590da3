import RouteAssets.Chunk.Placement
import RouteAssets.Notice

/-!
# Imported chunks

The chunks that the chunks of a route import, directly or through others. The first chunk marked as
an entry is on the page already and imports whatever the application can load, so it is neither
followed nor listed.
-/

namespace RouteAssets.Chunk

open RouteAssets.Text

variable {α : Type}

/-- The file of the first entry chunk. -/
def mainFile? (cs : List (Chunk α)) : Option FileName := (cs.find? Chunk.isEntry).map Chunk.file

/-- The imports of each chunk; of several chunks with one file the last counts. -/
def importsByChunk (cs : List (Chunk α)) : Table FileName (List FileName) :=
  Table.ofList (cs.map fun c => (c.file, c.imports))

/-- The files that a file leads to, the main entry left out. -/
def importsOf (imports : Table FileName (List FileName)) (main : Option FileName)
    (file : FileName) : List FileName :=
  if some file == main then [] else (imports.getD file []).filter fun i => some i != main

/-- Follows imports for at most `n` files of the queue. `reached` are the files found so far. -/
def reachFor (next : FileName → List FileName) :
    Nat → List FileName → List FileName → List FileName
  | 0, _, reached => reached
  | _ + 1, [], reached => reached
  | n + 1, file :: queue, reached =>
    let new := distinct ((next file).filter (!reached.contains ·))
    reachFor next n (queue ++ new) (reached ++ new)

/-- The number of imports of all chunks. -/
def importCount (imports : Table FileName (List FileName)) : Nat :=
  imports.values.flatten.length

/-- The files that some files lead to, themselves included. Every file that joins the queue is
imported by a chunk and joins it once. -/
def reach (imports : Table FileName (List FileName)) (main : Option FileName)
    (files : List FileName) : List FileName :=
  reachFor (importsOf imports main) (files.length + importCount imports) files (distinct files)

/-- The files of a route with all that its chunks import. The main entry is taken out unless it has
no name. -/
def expandFiles (imports : Table FileName (List FileName)) (main : Option FileName)
    (files : List FileName) : List FileName :=
  sortedSet ((reach imports main files).filter fun f => some f != main || f == "")

/-- The files of every route with all that its chunks import. -/
def expandStatic (routes : RouteMap) (cs : List (Chunk α)) : RouteMap :=
  routes.map fun _ files => expandFiles (importsByChunk cs) (mainFile? cs) files

/-- What is to be said about the routes whose number of files changes. -/
def expansionNotices (routes : RouteMap) (cs : List (Chunk α)) : List Notice :=
  (routes.entries.zip (expandStatic routes cs).entries).filterMap fun ((route, files), _, all) =>
    if files.length == all.length then none
    else some (.chunksExpanded route files.length all.length)

end RouteAssets.Chunk
