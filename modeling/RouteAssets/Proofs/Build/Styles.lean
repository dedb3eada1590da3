import RouteAssets.Proofs.Build.Run
import RouteAssets.Proofs.Chunk.Expansion

/-!
# Which chunks bring their style sheets

Style sheets are looked up once, for the chunks of the modules that a route needs. The optional
stages add chunks afterwards, and add nothing but the chunks.

* **Contents** (`mem_fullMap_iff`): why a file is listed for a route under any setting of the stages
  (`IsListed`).
* **What is kept** (`isListed_of_bringsStyles`): a chunk with a module that the route needs brings its
  style sheets, whatever the later stages do.
* **Completeness** (`generate_isStyled_iff`): all listed chunks have theirs listed exactly when those
  that joined in another way find theirs listed already, which is so where chunks with style sheets
  are neither imported nor selected.
-/

namespace RouteAssets.Build

open RouteAssets.Chunk RouteAssets.Text

/-! ## Why a file is listed -/

section Contents

variable (o : Options) (f : Findings) (cs : List (Chunk FileName)) (path : String)

/-- A route needs a module. -/
def NeedsModule (m : ModuleId) : Prop := ∃ ms, (neededModules o f).get? path = some ms ∧ m ∈ ms

/-- A module that the route needs brings a file in. -/
def IsNeeded (x : FileName) : Prop := ∃ m, NeedsModule o f path m ∧ BringsIn cs m x

/-- The files before chunks are selected: those that needed modules bring in and, where imported
chunks are added, what these lead to, less the main entry. -/
def IsExpanded (addsImportedChunks : Bool) (x : FileName) : Prop :=
  if addsImportedChunks then
    (some x ≠ mainFile? cs ∨ x = "") ∧ ∃ y, IsNeeded o f cs path y ∧ LeadsTo cs y x
  else IsNeeded o f cs path x

/-- The files after both stages: selected chunks join where there is any file. -/
def IsListed (addsImportedChunks : Bool) (patterns : List String) (x : FileName) : Prop :=
  IsExpanded o f cs path addsImportedChunks x ∨
    (((∃ c ∈ cs, c.file = x) ∧ isSelected patterns x = true) ∧
      ∃ y, IsExpanded o f cs path addsImportedChunks y)

variable {o f cs path}

/-- The stages do not look at style sheets. -/
lemma expandStatic_mapStyles (files : RouteMap) :
    expandStatic files (cs.map (Chunk.mapStyles Json.string)) = expandStatic files cs := by
  have himports : importsByChunk (cs.map (Chunk.mapStyles Json.string)) = importsByChunk cs := by
    simp [importsByChunk, Function.comp_def, Chunk.mapStyles]
  have hmain : mainFile? (cs.map (Chunk.mapStyles Json.string)) = mainFile? cs := by
    have hentry : (Chunk.isEntry ∘ Chunk.mapStyles Json.string : Chunk FileName → Bool) =
        Chunk.isEntry := rfl
    simp [mainFile?, List.find?_map, hentry, Function.comp_def, Chunk.mapStyles]
  rw [expandStatic, expandStatic, himports, hmain]

/-- Chunks are selected by their names alone. -/
lemma selected_mapStyles (patterns : List String) :
    selected (cs.map (Chunk.mapStyles Json.string)) patterns = selected cs patterns := by
  simp [selected, Function.comp_def, Chunk.mapStyles]

/-- The files before the optional stages. -/
lemma mem_plainMap_iff {files : List FileName} (h : (plainMap o f cs).get? path = some files)
    (x : FileName) : x ∈ files ↔ IsNeeded o f cs path x := by
  rw [plainMap, get?_routeFiles, Option.map_eq_some_iff] at h
  obtain ⟨ms, hms, rfl⟩ := h
  simp [mem_files_routeFiles_iff, IsNeeded, NeedsModule, hms]

/-- The files after the first stage. -/
lemma mem_expandedMap_iff {files : List FileName} (h : (expandedMap o f cs).get? path = some files)
    (x : FileName) : x ∈ files ↔ IsExpanded o f cs path o.addsImportedChunks x := by
  unfold expandedMap at h
  unfold IsExpanded
  split at h
  · rename_i hadds
    rw [expandStatic_mapStyles, expandStatic, Table.get?_map, Option.map_eq_some_iff] at h
    obtain ⟨plain, hplain, rfl⟩ := h
    simp only [hadds, if_true, mem_expandFiles_iff, mem_plainMap_iff hplain]
  · rename_i hadds
    simp only [hadds, Bool.false_eq_true, if_false]
    exact mem_plainMap_iff h x

/-- The files after both stages. -/
lemma mem_fullMap_iff {patterns : List String} {files : List FileName}
    (h : (fullMap o f cs patterns).get? path = some files) (x : FileName) :
    x ∈ files ↔ IsListed o f cs path o.addsImportedChunks patterns x := by
  unfold fullMap at h
  unfold IsListed
  split at h
  · rename_i hpatterns
    have hnone : isSelected patterns x = false := by
      simp [isSelected, List.isEmpty_iff.1 hpatterns]
    simp [hnone, mem_expandedMap_iff h]
  · rw [addSelected, Table.get?_map, Option.map_eq_some_iff] at h
    obtain ⟨expanded, hexpanded, rfl⟩ := h
    simp only [← mem_expandedMap_iff hexpanded, ← mem_selected_iff, selected_mapStyles]
    split
    · rename_i hempty
      simp [List.isEmpty_iff.1 hempty]
    · rename_i hany
      have hsome : ∃ y, y ∈ expanded := List.exists_mem_of_ne_nil _ (by simpa using hany)
      simp [mem_sortedSet, hsome]

end Contents

/-! ## Style sheets -/

/-- Every chunk among some files has its style sheets among them. -/
def IsStyled (cs : List (Chunk FileName)) (files : List FileName) : Prop :=
  ∀ c ∈ cs, c.file ∈ files → ∀ s ∈ c.styles, s ∈ files

/-- A chunk brings its style sheets to a route: the route needs a module that is placed in it, and
none of its style sheets has the name of the main entry, which leaves with the first stage. -/
def BringsStyles (o : Options) (f : Findings) (cs : List (Chunk FileName)) (path : String)
    (addsImportedChunks : Bool) (c : Chunk FileName) : Prop :=
  (∃ m, NeedsModule o f path m ∧ PlacedIn cs m c.file ∧ c.file ≠ "") ∧
    ∀ s ∈ c.styles, addsImportedChunks = true → some s = mainFile? cs → s = ""

/-- Chunks with style sheets join a route for their modules only: none is selected, and none is
imported where imported chunks are added. No style sheet has the name of a chunk. -/
structure StylesApart (cs : List (Chunk FileName)) (addsImportedChunks : Bool)
    (patterns : List String) : Prop where
  not_chunk : ∀ c ∈ cs, ∀ d ∈ cs, d.file ∉ c.styles
  not_selected : ∀ c ∈ cs, c.styles ≠ [] → isSelected patterns c.file = false
  not_imported : addsImportedChunks = true → ∀ c ∈ cs, c.styles ≠ [] → ∀ d ∈ cs, c.file ∉ d.imports

section Styles

variable {o : Options} {f : Findings} {cs : List (Chunk FileName)} {path : String}
  {addsImportedChunks : Bool} {patterns : List String} {c : Chunk FileName}

/-- What a needed module brings in stays through the first stage, the main entry excepted. -/
lemma isExpanded_of_isNeeded {x : FileName} (h : IsNeeded o f cs path x)
    (hmain : addsImportedChunks = true → some x = mainFile? cs → x = "") :
    IsExpanded o f cs path addsImportedChunks x := by
  unfold IsExpanded
  split
  · rename_i hadds
    refine ⟨?_, x, h, .refl⟩
    by_cases hx : some x = mainFile? cs
    · exact Or.inr (hmain hadds hx)
    · exact Or.inl hx
  · exact h

/-- A chunk that brings its style sheets has them listed. -/
lemma isListed_of_bringsStyles (hfiles : (cs.map Chunk.file).Nodup) (hc : c ∈ cs)
    (h : BringsStyles o f cs path addsImportedChunks c) {s : FileName} (hs : s ∈ c.styles) :
    IsListed o f cs path addsImportedChunks patterns s := by
  obtain ⟨⟨m, hm, hplaced, hne⟩, hmain⟩ := h
  -- no other chunk has this file, so its style sheets are the ones on record
  have hlast : IsLast (fun d => d.file = c.file ∧ d.styles ≠ []) cs c :=
    isLast_of_nodup hfiles hc ⟨rfl, List.ne_nil_of_mem hs⟩ fun d hd => hd.1
  have hbrings : BringsIn cs m s := ⟨c.file, hne, hplaced, Or.inr ⟨_, ⟨c, hlast, rfl⟩, hs⟩⟩
  exact Or.inl (isExpanded_of_isNeeded ⟨m, hm, hbrings⟩ (hmain s hs))

/-- A file that a needed module brings in is the chunk of such a module or a style sheet of one. -/
lemma placed_or_style_of_isNeeded {x : FileName} (h : IsNeeded o f cs path x) :
    (∃ m, NeedsModule o f path m ∧ PlacedIn cs m x ∧ x ≠ "") ∨ ∃ d ∈ cs, x ∈ d.styles := by
  obtain ⟨m, hm, file, hne, hplaced, rfl | ⟨styles, ⟨d, hd, rfl⟩, hx⟩⟩ := h
  · exact Or.inl ⟨m, hm, hplaced, hne⟩
  · exact Or.inr ⟨d, hd.mem, hx⟩

/-- Where chunks with style sheets join for their modules only, each of them that is listed brings
its style sheets. -/
lemma StylesApart.bringsStyles (h : StylesApart cs addsImportedChunks patterns) (hc : c ∈ cs)
    (hstyled : c.styles ≠ []) (hlisted : IsListed o f cs path addsImportedChunks patterns c.file) :
    BringsStyles o f cs path addsImportedChunks c := by
  have hmain : ∀ s ∈ c.styles, some s ≠ mainFile? cs := by
    intro s hs hmain
    obtain ⟨d, hd, rfl⟩ := Option.map_eq_some_iff.1 hmain.symm
    exact h.not_chunk c hc d (List.mem_of_find?_eq_some hd) hs
  refine ⟨?_, fun s hs _ hs' => absurd hs' (hmain s hs)⟩
  have hplaced : IsNeeded o f cs path c.file →
      ∃ m, NeedsModule o f path m ∧ PlacedIn cs m c.file ∧ c.file ≠ "" := by
    intro hneeded
    refine (placed_or_style_of_isNeeded hneeded).resolve_right ?_
    rintro ⟨d, hd, hstyle⟩
    exact h.not_chunk d hd c hc hstyle
  rcases hlisted with hexpanded | ⟨⟨-, hselected⟩, -⟩
  · unfold IsExpanded at hexpanded
    split at hexpanded
    · rename_i hadds
      obtain ⟨-, y, hy, hleads⟩ := hexpanded
      -- the last step of the way would be an import of a chunk with style sheets
      rcases hleads.cases_tail with hfile | ⟨z, -, -, -, d, hd, himport⟩
      · exact hplaced (hfile ▸ hy)
      · exact absurd himport (h.not_imported hadds c hc hstyled d hd.mem)
    · exact hplaced hexpanded
  · cases hselected.symm.trans (h.not_selected c hc hstyled)

end Styles

/-- **Chunks of needed modules bring their style sheets, chunks that join later do not.** A generation
answers, and a file is listed for a route exactly if a needed module brings it in, imports lead to it,
or it is a selected chunk. So all listed chunks have their style sheets listed exactly when the ones
that are listed for another reason than their modules find theirs listed already. That is so under
every setting where chunks with style sheets join for their modules only. -/
theorem generate_isStyled_iff (o : Options) {cs : List (Chunk FileName)}
    (hfiles : (cs.map Chunk.file).Nodup) (b : Build) (addsImportedChunks : Bool)
    (patterns : List String) :
    ∃ files b', outcome (generate { o with addsImportedChunks, chunkPatterns := .ok patterns }
        (cs.map (Chunk.mapStyles Json.string))) b = (.ok files, b') ∧
      ∀ path listed, files.get? path = some listed →
        (∀ x, x ∈ listed ↔ IsListed o b.findings cs path addsImportedChunks patterns x) ∧
        (IsStyled cs listed ↔ ∀ c ∈ cs, c.file ∈ listed →
          ¬ BringsStyles o b.findings cs path addsImportedChunks c → ∀ s ∈ c.styles, s ∈ listed) ∧
        (StylesApart cs addsImportedChunks patterns → IsStyled cs listed) := by
  let o' : Options := { o with addsImportedChunks, chunkPatterns := .ok patterns }
  obtain ⟨ns, hgenerate⟩ := outcome_generate o' cs b rfl
  refine ⟨_, _, hgenerate, fun path listed hlisted => ?_⟩
  have hmem : ∀ x, x ∈ listed ↔ IsListed o b.findings cs path addsImportedChunks patterns x :=
    mem_fullMap_iff hlisted
  have hbrings : ∀ c ∈ cs, BringsStyles o b.findings cs path addsImportedChunks c →
      ∀ s ∈ c.styles, s ∈ listed :=
    fun c hc h s hs => (hmem s).2 (isListed_of_bringsStyles hfiles hc h hs)
  refine ⟨hmem, ⟨fun h c hc hfile _ => h c hc hfile, fun h c hc hfile => ?_⟩,
    fun hapart c hc hfile s hs => ?_⟩
  · by_cases hc' : BringsStyles o b.findings cs path addsImportedChunks c
    · exact hbrings c hc hc'
    · exact h c hc hfile hc'
  · have hstyled : c.styles ≠ [] := List.ne_nil_of_mem hs
    exact hbrings c hc (hapart.bringsStyles hc hstyled ((hmem _).1 hfile)) s hs

/-- A route whose chunk imports a chunk with a style sheet. Where imported chunks are left out, every
listed chunk has its style sheets listed; where they are added, the imported chunk is listed without
its own. -/
theorem generate_isStyled_iff_of_imported :
    let page : Chunk FileName := ⟨"a.js", ["/app/a.vue"], ["a.css"], ["b.js"], [], false, false⟩
    let shared : Chunk FileName := ⟨"b.js", [], ["b.css"], [], [], false, false⟩
    let route : Route := ⟨"/a", "/a", some "/app/a.vue", true, none⟩
    let b : Build := { Build.start with findings := { Findings.empty with routes := [route] } }
    let generated := fun addsImportedChunks =>
      outcome (generate { listingOptions with addsImportedChunks, chunkPatterns := .ok [] }
        ([page, shared].map (Chunk.mapStyles Json.string))) b
    ([page, shared].map Chunk.file).Nodup ∧
      (∃ files b', generated false = (.ok files, b') ∧
        ∀ path listed, files.get? path = some listed → IsStyled [page, shared] listed) ∧
      ∃ files b', generated true = (.ok files, b') ∧
        files.get? "/a" = some ["a.css", "a.js", "b.js"] ∧
        ¬ IsStyled [page, shared] ["a.css", "a.js", "b.js"] ∧
        ¬ IsListed listingOptions b.findings [page, shared] "/a" true [] "b.css" := by
  intro page shared route b generated
  have hfiles : ([page, shared].map Chunk.file).Nodup := by decide
  have hapart : StylesApart [page, shared] false [] := by
    refine ⟨by decide, by decide, fun h => absurd h (by decide)⟩
  have hadded : (generated true).1.toOption.map (·.get? "/a") =
      some (some ["a.css", "a.js", "b.js"]) := by decide +kernel
  obtain ⟨files, b', hrun, hlists⟩ := generate_isStyled_iff listingOptions hfiles b false []
  obtain ⟨grown, b'', hrun', hgrown⟩ := generate_isStyled_iff listingOptions hfiles b true []
  have hlisted : grown.get? "/a" = some ["a.css", "a.js", "b.js"] := by
    rw [show generated true = (.ok grown, b'') from hrun'] at hadded
    exact Option.some.inj hadded
  refine ⟨hfiles, ⟨files, b', hrun, fun path listed h => (hlists path listed h).2.2 hapart⟩,
    grown, b'', hrun', hlisted, fun hstyled => ?_, fun hcss => ?_⟩
  · have hcss : "b.css" ∈ ["a.css", "a.js", "b.js"] :=
      hstyled shared (by simp) (by decide) "b.css" (by decide)
    exact absurd hcss (by decide)
  · exact absurd (((hgrown "/a" _ hlisted).1 "b.css").2 hcss) (by decide)

end RouteAssets.Build
