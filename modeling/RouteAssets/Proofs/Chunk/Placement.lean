import RouteAssets.Chunk.Expansion
import RouteAssets.Chunk.Selection
import RouteAssets.Proofs.Table

/-!
# Files of routes

* **Placement** (`get?_chunkByModule`, `get?_stylesByChunk`): the chunk of a module is that of the
  last chunk that lists it; the style sheets of a file are those of the last chunk with that file
  that has any.
* **Files** (`mem_files_routeFiles_iff`): a route needs the files of the chunks of its modules, each
  with its style sheets.
* **Later stages** (`Completes`): adding imported chunks and adding selected chunks keep the routes
  in their order, give ascending lists, and leave a route without files without files.
-/

namespace RouteAssets.Chunk

open RouteAssets.Text

variable {α : Type}

/-! ## Placement -/

/-- A module is placed in a file: that of the last chunk that lists the module. -/
def PlacedIn (cs : List (Chunk α)) (m : ModuleId) (file : FileName) : Prop :=
  ∃ c, IsLast (fun c => m ∈ c.modules) cs c ∧ c.file = file

/-- The style sheets of a file: those of the last chunk with this file that has any. -/
def HasStyles (cs : List (Chunk α)) (file : FileName) (styles : List α) : Prop :=
  ∃ c, IsLast (fun c => c.file = file ∧ c.styles ≠ []) cs c ∧ c.styles = styles

/-- A file of the chunk of a module: the chunk itself, if it has a name, or one of its style
sheets. -/
def BringsIn (cs : List (Chunk FileName)) (m : ModuleId) (f : FileName) : Prop :=
  ∃ file, file ≠ "" ∧ PlacedIn cs m file ∧
    (f = file ∨ ∃ styles, HasStyles cs file styles ∧ f ∈ styles)

/-- The table of chunks holds where modules are placed. -/
lemma get?_chunkByModule (cs : List (Chunk α)) (m : ModuleId) (file : FileName) :
    (chunkByModule cs).get? m = some file ↔ PlacedIn cs m file := by
  unfold chunkByModule PlacedIn
  rw [Table.get?_ofList_flatMap]
  simp only [List.map_map, Function.comp_def, List.map_id']
  refine exists_congr fun c => and_congr_right fun hlast => ?_
  obtain ⟨_, _, _, hm, _⟩ := hlast
  rw [Table.get?_ofList_map (fun m => m) (fun _ => c.file)]
  constructor
  · rintro ⟨_, -, h⟩
    exact h
  · intro h
    obtain ⟨x, hx⟩ : ∃ x, IsLast (· = m) c.modules x := exists_isLast ⟨m, hm, rfl⟩
    exact ⟨x, hx, h⟩

/-- The table of style sheets holds those of each file. -/
lemma get?_stylesByChunk (cs : List (Chunk α)) (file : FileName) (styles : List α) :
    (stylesByChunk cs).get? file = some styles ↔ HasStyles cs file styles := by
  have hflat : ((cs.filter fun c => !c.styles.isEmpty).map fun c => (c.file, c.styles)) =
      cs.flatMap fun c => if c.styles.isEmpty then [] else [(c.file, c.styles)] := by
    induction cs with
    | nil => rfl
    | cons c cs ih => by_cases hc : c.styles = [] <;> simp [hc, ih]
  have hkind : ∀ c : Chunk α,
      (file ∈ (if c.styles.isEmpty then [] else [(c.file, c.styles)]).map Prod.fst) =
        (c.file = file ∧ c.styles ≠ []) := by
    intro c
    by_cases hc : c.styles = [] <;> simp [hc, eq_comm (a := file)]
  unfold stylesByChunk HasStyles
  rw [hflat, Table.get?_ofList_flatMap]
  simp only [hkind]
  refine exists_congr fun c => and_congr_right fun hlast => ?_
  obtain ⟨_, _, _, ⟨hfile, hne⟩, _⟩ := hlast
  simp [hne, hfile, Table.get?_ofList, Table.lookup]

/-! ## Files -/

/-- The files that one module needs. -/
lemma mem_filesOf_iff (cs : List (Chunk FileName)) (m : ModuleId) (f : FileName) :
    f ∈ filesOf (chunkByModule cs) (stylesByChunk cs) m ↔ BringsIn cs m f := by
  unfold filesOf BringsIn
  simp only [← get?_chunkByModule, ← get?_stylesByChunk]
  split
  · rename_i h
    simp [h]
  · rename_i h
    simp [h]
  · rename_i file hne h
    simp only [h, Option.some.injEq, List.mem_cons, Table.mem_getD_nil_iff]
    constructor
    · exact fun hf => ⟨file, hne, rfl, hf⟩
    · rintro ⟨_, -, rfl, hf⟩
      exact hf

/-- The files of a route are those that its modules need, in ascending order. -/
lemma get?_routeFiles (needed : Table String (List ModuleId)) (cs : List (Chunk FileName))
    (route : String) :
    (routeFiles needed (chunkByModule cs) (stylesByChunk cs)).get? route =
      (needed.get? route).map fun modules =>
        sortedSet (modules.flatMap (filesOf (chunkByModule cs) (stylesByChunk cs))) :=
  Table.get?_map _ needed route

/-- A file is among those of some modules exactly when one of them brings it in. -/
lemma mem_files_routeFiles_iff (cs : List (Chunk FileName)) (modules : List ModuleId)
    (f : FileName) :
    f ∈ sortedSet (modules.flatMap (filesOf (chunkByModule cs) (stylesByChunk cs))) ↔
      ∃ m ∈ modules, BringsIn cs m f := by
  simp only [mem_sortedSet, List.mem_flatMap, mem_filesOf_iff]

/-! ## Later stages -/

/-- Every list of a route map is strictly ascending. -/
def IsSorted (files : RouteMap) : Prop :=
  ∀ route fs, files.get? route = some fs → fs.Pairwise fun a b => before a b = true

/-- A route map completes another: it has the same routes in the same order, and a route without
files stays without files. -/
structure Completes (files files' : RouteMap) : Prop where
  keys_eq : files'.keys = files.keys
  nil_of_nil : ∀ route, files.get? route = some [] → files'.get? route = some []

/-- A route map completes itself. -/
lemma Completes.refl (files : RouteMap) : Completes files files := ⟨rfl, fun _ h => h⟩

/-- What completes a completed map completes the map. -/
lemma Completes.trans {files files' files'' : RouteMap} (h : Completes files files')
    (h' : Completes files' files'') : Completes files files'' :=
  ⟨h'.keys_eq.trans h.keys_eq, fun route hr => h'.nil_of_nil route (h.nil_of_nil route hr)⟩

/-- The files of routes are sorted. -/
lemma isSorted_routeFiles (needed : Table String (List ModuleId))
    (byModule : Table ModuleId FileName) (styles : Table FileName (List FileName)) :
    IsSorted (routeFiles needed byModule styles) := by
  intro route fs h
  rw [routeFiles, Table.get?_map] at h
  obtain ⟨modules, -, rfl⟩ := Option.map_eq_some_iff.1 h
  exact sortedSet_ascending _

/-- No chunks are reached from no chunks. -/
lemma expandFiles_nil (imports : Table FileName (List FileName)) (main : Option FileName) :
    expandFiles imports main [] = [] := by
  have hreach : reach imports main [] = [] := by
    unfold reach
    cases ([] : List FileName).length + importCount imports <;> rfl
  rw [expandFiles, hreach]
  rfl

/-- Adding imported chunks completes a route map. -/
lemma completes_expandStatic (files : RouteMap) (cs : List (Chunk α)) :
    Completes files (expandStatic files cs) := by
  refine ⟨Table.keys_map _ files, fun route h => ?_⟩
  rw [expandStatic, Table.get?_map, h, Option.map_some, expandFiles_nil]

/-- Route maps with imported chunks are sorted. -/
lemma isSorted_expandStatic (files : RouteMap) (cs : List (Chunk α)) :
    IsSorted (expandStatic files cs) := by
  intro route fs h
  rw [expandStatic, Table.get?_map] at h
  obtain ⟨_, -, rfl⟩ := Option.map_eq_some_iff.1 h
  exact sortedSet_ascending _

/-- Adding selected chunks completes a route map. -/
lemma completes_addSelected (files : RouteMap) (cs : List (Chunk α)) (patterns : List String) :
    Completes files (addSelected files cs patterns) := by
  refine ⟨Table.keys_map _ files, fun route h => ?_⟩
  rw [addSelected, Table.get?_map, h]
  rfl

/-- Route maps with selected chunks are sorted. -/
lemma isSorted_addSelected (files : RouteMap) (cs : List (Chunk α)) (patterns : List String) :
    IsSorted (addSelected files cs patterns) := by
  intro route fs h
  rw [addSelected, Table.get?_map] at h
  obtain ⟨old, -, rfl⟩ := Option.map_eq_some_iff.1 h
  split
  · rename_i hold
    rw [List.isEmpty_iff.1 hold]
    exact List.Pairwise.nil
  · exact sortedSet_ascending _

end RouteAssets.Chunk
