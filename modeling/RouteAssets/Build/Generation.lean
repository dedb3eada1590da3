import RouteAssets.Build.Reading
import RouteAssets.Chunk.Expansion
import RouteAssets.Chunk.Selection
import RouteAssets.Graph.Walk

/-!
# Generating the route map

The route map comes from the findings of a build and the chunks of a bundle: the modules that each
route needs, then the files of their chunks, then the chunks that these import and the chunks that
are added to every route, where the options ask for them. A build may generate it any number of
times; a full run reads the project from scratch before.

A bundle may name style sheets by other values than texts. They do no harm as long as no route needs
a chunk that has one.
-/

namespace RouteAssets.Build

open RouteAssets.Text

/-- The chunk with those of its style sheets that are named by texts. -/
def withTextStyles (c : Chunk Json) : Chunk String :=
  { c with styles := c.styles.filterMap fun s =>
      match s with
      | .string t => some t
      | _ => none }

/-- Is a style sheet named by a text? -/
def isTextStyle (s : Json) : Bool := s matches .string _

/-- The files whose style sheets are not all named by texts. -/
def oddlyStyled (cs : List (Chunk Json)) : List FileName :=
  ((Chunk.stylesByChunk cs).entries.filter fun e => e.2.any (!isTextStyle ·)).map Prod.fst

/-- The files of the routes, given the modules that they need. -/
def routeFiles (needed : Table String (List ModuleId)) (cs : List (Chunk Json)) : Field RouteMap :=
  let byModule := Chunk.chunkByModule cs
  let files := Chunk.routeFiles needed byModule (Chunk.stylesByChunk (cs.map withTextStyles))
  if cs.any fun c => c.styles.any (!·.isScalar) then .error .wrongKind
  else if (files.values.flatten).any (oddlyStyled cs).contains then .error .wrongKind
  else .ok files

/-- Generates the route map. -/
def generate (o : Options) (cs : List (Chunk Json)) : BuildStep RouteMap := do
  let findings := (← get).findings
  let (needed, notices) :=
    (findings.graph o.excluded).routeDependencies findings.static findings.routes
  tell notices
  let files ← demand (routeFiles needed cs)
  let files ←
    if o.addsImportedChunks then do
      tell (Chunk.expansionNotices files cs)
      pure (Chunk.expandStatic files cs)
    else pure files
  let patterns ← demand o.chunkPatterns
  let files ←
    if patterns.isEmpty then pure files
    else do
      tell (Chunk.selectionNotices cs patterns)
      pure (Chunk.addSelected files cs patterns)
  tell [.mapGenerated files.size]
  return files

/-- Generates the route map anew from what is known, after which it is up to date. -/
def refresh (o : Options) (cs : List (Chunk Json)) : BuildStep RouteMap := do
  let files ← generate o cs
  markDirty false
  return files

/-- Forgets everything, reads the project and generates the route map. -/
def run (o : Options) (d : Disk) (cs : List (Chunk Json)) : BuildStep RouteMap := do
  modifyFindings fun _ => .empty
  forgetLookups
  begin o d
  let _ ← readModules o d (← discover o d)
  markDirty false
  generate o cs

end RouteAssets.Build
