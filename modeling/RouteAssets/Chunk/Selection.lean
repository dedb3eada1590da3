import RouteAssets.Chunk.Placement
import RouteAssets.Notice
import RouteAssets.Text.Pattern

/-!
# Selected chunks

Chunks that every route with any file gets besides its own, selected by patterns for their names.
-/

namespace RouteAssets.Chunk

open RouteAssets.Text

variable {α : Type}

/-- The part of a file name behind its last slash. -/
def baseName (file : FileName) : String := (pieces '/' file).getLast?.getD ""

/-- Does one of the patterns match the name of a file, or the part of it behind the last slash? -/
def isSelected (patterns : List String) (file : FileName) : Bool :=
  patterns.any fun p => matchesPattern p (baseName file) || matchesPattern p file

/-- The files of the chunks that some patterns select. -/
def selected (cs : List (Chunk α)) (patterns : List String) : List FileName :=
  (cs.map Chunk.file).filter (isSelected patterns)

/-- Adds the selected chunks to every route with any file. -/
def addSelected (routes : RouteMap) (cs : List (Chunk α)) (patterns : List String) : RouteMap :=
  routes.map fun _ files =>
    if files.isEmpty then files else sortedSet (files ++ selected cs patterns)

/-- What is to be said about the selection. -/
def selectionNotices (cs : List (Chunk α)) (patterns : List String) : List Notice :=
  let files := selected cs patterns
  if files.isEmpty then []
  else [.chunksMatched (joinWith ", " patterns) (joinWith ", " files)]

end RouteAssets.Chunk
