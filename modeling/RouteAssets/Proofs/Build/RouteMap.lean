import RouteAssets.Build.Generation
import RouteAssets.Proofs.Build.Outcome
import RouteAssets.Proofs.Chunk.Placement

/-!
# What the route map holds

* **Style sheets** (`routeFiles_mapStyles`): where all style sheets are named by texts, no route
  needs one that is not.
* **Generation** (`outcome_generate`): a generation never fails with such chunks, and its answer is
  the composition of its stages.
* **Route map** (`generate_routeMap`): without the optional stages the map has the full paths of the
  routes for keys, and the last route with a full path gives its files; with any of the stages it
  has the same keys, sorted lists, and no files where there were none.
-/

namespace RouteAssets.Build

open RouteAssets.Text

/-! ## Style sheets -/

section Styles

variable (cs : List (Chunk String))

/-- Naming style sheets does not move modules. -/
lemma chunkByModule_mapStyles :
    Chunk.chunkByModule (cs.map (Chunk.mapStyles Json.string)) = Chunk.chunkByModule cs := by
  simp [Chunk.chunkByModule, List.flatMap_map, Chunk.mapStyles]

/-- Style sheets that are texts are kept. -/
lemma map_withTextStyles_mapStyles :
    (cs.map (Chunk.mapStyles Json.string)).map withTextStyles = cs := by
  have hchunk : ∀ c : Chunk String, withTextStyles (c.mapStyles Json.string) = c := by
    intro c
    simp [withTextStyles, Chunk.mapStyles, List.filterMap_map]
  rw [List.map_map]
  exact (List.map_congr_left fun c _ => hchunk c).trans (List.map_id' cs)

/-- No file has a style sheet that is not named by a text. -/
lemma oddlyStyled_mapStyles : oddlyStyled (cs.map (Chunk.mapStyles Json.string)) = [] := by
  unfold oddlyStyled
  rw [List.map_eq_nil_iff, List.filter_eq_nil_iff]
  rintro ⟨file, styles⟩ he
  obtain ⟨c, ⟨before, after, hcs, -⟩, rfl⟩ :=
    (Chunk.get?_stylesByChunk _ file styles).1 (Table.mem_entries_iff.1 he)
  have hc : c ∈ cs.map (Chunk.mapStyles Json.string) := by simp [hcs]
  obtain ⟨c', -, rfl⟩ := List.mem_map.1 hc
  simp [Chunk.mapStyles, isTextStyle]

/-- Where all style sheets are named by texts, every route gets its files. -/
lemma routeFiles_mapStyles (needed : Table String (List ModuleId)) :
    routeFiles needed (cs.map (Chunk.mapStyles Json.string)) =
      .ok (Chunk.routeFiles needed (Chunk.chunkByModule cs) (Chunk.stylesByChunk cs)) := by
  have hscalar : ((cs.map (Chunk.mapStyles Json.string)).any fun c =>
      c.styles.any (!·.isScalar)) = false := by
    simp [Chunk.mapStyles, Json.isScalar]
  have hodd : ∀ files : List FileName, (files.any ([] : List FileName).contains) = false := by simp
  simp only [routeFiles, hscalar, oddlyStyled_mapStyles, chunkByModule_mapStyles,
    map_withTextStyles_mapStyles, hodd, Bool.false_eq_true, if_false]

end Styles

/-! ## Generation -/

/-- The modules that the routes found by a build need. -/
def neededModules (o : Options) (f : Findings) : Table String (List ModuleId) :=
  ((f.graph o.excluded).routeDependencies f.static f.routes).1

/-- The files of the routes before the optional stages. -/
def plainMap (o : Options) (f : Findings) (cs : List (Chunk String)) : RouteMap :=
  Chunk.routeFiles (neededModules o f) (Chunk.chunkByModule cs) (Chunk.stylesByChunk cs)

/-- The files of the routes after the first optional stage. -/
def expandedMap (o : Options) (f : Findings) (cs : List (Chunk String)) : RouteMap :=
  if o.addsImportedChunks then
    Chunk.expandStatic (plainMap o f cs) (cs.map (Chunk.mapStyles Json.string))
  else plainMap o f cs

/-- The files of the routes after both optional stages. -/
def fullMap (o : Options) (f : Findings) (cs : List (Chunk String)) (patterns : List String) :
    RouteMap :=
  if patterns.isEmpty then expandedMap o f cs
  else Chunk.addSelected (expandedMap o f cs) (cs.map (Chunk.mapStyles Json.string)) patterns

/-- A generation answers with the files of the routes after all stages, and changes nothing but the
notices. -/
lemma outcome_generate (o : Options) (cs : List (Chunk String)) (b : Build) {patterns : List String}
    (hp : o.chunkPatterns = .ok patterns) :
    ∃ ns, outcome (generate o (cs.map (Chunk.mapStyles Json.string))) b =
      (.ok (fullMap o b.findings cs patterns), { b with notices := ns }) := by
  unfold generate
  rw [outcome_bind_ok (outcome_get b)]
  simp only [routeFiles_mapStyles, hp]
  rw [outcome_bind_ok (outcome_tell b _), outcome_bind_ok (outcome_demand_ok _ _)]
  unfold fullMap expandedMap plainMap neededModules
  by_cases ha : o.addsImportedChunks = true <;> by_cases he : patterns.isEmpty = true <;>
    simp only [outcome_bind, outcome_tell, outcome_pure, outcome_demand_ok, ha, he, if_true, if_false,
      Bool.false_eq_true] <;>
    exact ⟨_, rfl⟩

/-! ## The route map -/

/-- The routes that need modules are those that were found, at their first occurrences. -/
lemma keys_neededModules (o : Options) (f : Findings) :
    (neededModules o f).keys = distinct (f.routes.map Route.fullPath) := by
  simp only [neededModules, ModuleGraph.routeDependencies, Table.keys_ofList, List.map_map,
    Function.comp_def]

/-- The last route with a full path says which modules are needed. -/
lemma get?_neededModules (o : Options) (f : Findings) {path : String} {r : Route}
    (h : IsLast (fun r => r.fullPath = path) f.routes r) :
    (neededModules o f).get? path =
      some ((f.graph o.excluded).routeModules f.static r).1 := by
  simp only [neededModules, ModuleGraph.routeDependencies, List.map_map, Function.comp_def]
  exact (Table.get?_ofList_map Route.fullPath _ f.routes path _).2 ⟨r, h, rfl⟩

/-- What the map of the routes has to hold without the optional stages: the full paths of the routes
at their first occurrences, and for each the files of the last route with this path. A route whose
module is missing or has no name needs nothing; any other needs what its module and the targets of
the walk from it bring in. -/
structure IsRouteMap (o : Options) (f : Findings) (cs : List (Chunk FileName)) (files : RouteMap) :
    Prop where
  keys_eq : files.keys = distinct (f.routes.map Route.fullPath)
  without_entry : ∀ path r, IsLast (fun r => r.fullPath = path) f.routes r →
    r.entry = none ∨ r.entry = some "" → files.get? path = some []
  with_entry : ∀ path r entry, IsLast (fun r => r.fullPath = path) f.routes r →
    r.entry = some entry → entry ≠ "" → ∃ fs, files.get? path = some fs ∧ ∀ x, x ∈ fs ↔
      ∃ m, (m = entry ∨ m ∈ ((f.graph o.excluded).walk f.static entry).targets) ∧
        Chunk.BringsIn cs m x

/-- The files of the routes before the optional stages are the right ones. -/
lemma isRouteMap_plainMap (o : Options) (f : Findings) (cs : List (Chunk FileName)) :
    IsRouteMap o f cs (plainMap o f cs) := by
  refine ⟨(Table.keys_map _ _).trans (keys_neededModules o f), ?_, ?_⟩
  · intro path r hr hentry
    have hnone : r.entryModule? = none := by
      rcases hentry with h | h <;> simp [Route.entryModule?, h]
    rw [plainMap, Chunk.get?_routeFiles, get?_neededModules o f hr, ModuleGraph.routeModules, hnone]
    rfl
  · intro path r entry hr hentry hne
    have hsome : r.entryModule? = some entry := by
      unfold Route.entryModule?
      split
      · rename_i h
        exact absurd (Option.some.inj (hentry.symm.trans h)) hne
      · exact hentry
    rw [plainMap, Chunk.get?_routeFiles, get?_neededModules o f hr, ModuleGraph.routeModules, hsome]
    refine ⟨_, rfl, fun x => ?_⟩
    simp only [Chunk.mem_files_routeFiles_iff, mem_addNew, or_comm (b := _ = entry)]

/-- The optional stages complete the map and keep it sorted. -/
lemma fullMap_completes (o : Options) (f : Findings) (cs : List (Chunk FileName))
    (patterns : List String) :
    Chunk.Completes (plainMap o f cs) (fullMap o f cs patterns) ∧
      Chunk.IsSorted (fullMap o f cs patterns) := by
  have hexpanded : Chunk.Completes (plainMap o f cs) (expandedMap o f cs) ∧
      Chunk.IsSorted (expandedMap o f cs) := by
    unfold expandedMap
    split
    · exact ⟨Chunk.completes_expandStatic _ _, Chunk.isSorted_expandStatic _ _⟩
    · exact ⟨Chunk.Completes.refl _, Chunk.isSorted_routeFiles _ _ _⟩
  unfold fullMap
  split
  · exact hexpanded
  · exact ⟨hexpanded.1.trans (Chunk.completes_addSelected _ _ _), Chunk.isSorted_addSelected _ _ _⟩

/-- **The map that is generated holds what its routes need.** With both optional stages off a
generation answers, in every state of a build and for all chunks, with the right files of the
routes. With any setting of the stages it answers with the same keys in the same order, every list
is strictly ascending, and a route without files stays without files. -/
theorem generate_routeMap (o : Options) (cs : List (Chunk FileName)) (b : Build) :
    ∃ files b', outcome (generate { o with addsImportedChunks := false, chunkPatterns := .ok [] }
        (cs.map (Chunk.mapStyles Json.string))) b = (.ok files, b') ∧
      IsRouteMap o b.findings cs files ∧
      ∀ (addsImportedChunks : Bool) (patterns : List String),
        ∃ files' b'', outcome (generate { o with addsImportedChunks, chunkPatterns := .ok patterns }
            (cs.map (Chunk.mapStyles Json.string))) b = (.ok files', b'') ∧
          files'.keys = files.keys ∧
          (∀ path fs, files'.get? path = some fs → fs.Pairwise fun x y => before x y = true) ∧
          ∀ path, files.get? path = some [] → files'.get? path = some [] := by
  obtain ⟨ns, hplain⟩ :=
    outcome_generate { o with addsImportedChunks := false, chunkPatterns := .ok [] } cs b rfl
  refine ⟨_, _, hplain, isRouteMap_plainMap o b.findings cs, fun addsImportedChunks patterns => ?_⟩
  let o' : Options := { o with addsImportedChunks, chunkPatterns := .ok patterns }
  obtain ⟨ns', hfull⟩ := outcome_generate o' cs b rfl
  obtain ⟨hcompletes, hsorted⟩ := fullMap_completes o' b.findings cs patterns
  exact ⟨_, _, hfull, hcompletes.keys_eq, hsorted, hcompletes.nil_of_nil⟩

end RouteAssets.Build
