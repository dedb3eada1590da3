import RouteAssets.Build.Reading
import RouteAssets.Proofs.Imports.Precheck

/-!
# What a build asks a resolver for

Each of the three readers of a build that are handed a resolver — dynamic imports, router files and
registration files — mirrors itself with a resolver without a state, as long as the resolver follows
fixed answers.

* **Dynamic imports** (`mem_dynamicImports_iff`): the modules that the answers to the literal
  specifiers name.
* **Router files** (`extractFiles_eq`, `extractionAt_of_unread`): what all files add one after
  another; a file that cannot be read or parsed adds nothing.
* **Registration files** (`modules_collect`, `foldl_fileModules_filter`): a file that cannot be read
  changes nothing.
-/

namespace RouteAssets

open RouteAssets.Script RouteAssets.Text

variable {σ : Type} {good : σ → Prop} {resolve : Resolver σ} {answer : String → ModuleId → Answer}

/-! ## Dynamic imports -/

namespace Imports

/-- Collecting dynamic imports mirrors itself. -/
lemma mirrors_collectDynamic (h : ∀ s m, Settles good (resolve s m) (answer s m)) (source : Source)
    (module : ModuleId) (globs : Bool) :
    Mirrors good (collectDynamic resolve source module globs)
      (collectDynamic (Resolver.stateless answer) source module globs) := by
  unfold collectDynamic
  split
  · exact mirrors_pure _
  · split
    · exact (mirrors_askAll h _ _).bind fun _ => mirrors_pure _
    · exact mirrors_pure _

/-- The dynamic imports of a script whose text passes the test: what the answers to its literal
specifiers name. -/
lemma mem_dynamicImports_iff {source : Source} {root : Tree} (hroot : source.root? = some root)
    (module : ModuleId) (globs : Bool) (t : ModuleId) :
    t ∈ (value (collectDynamic (Resolver.stateless answer) source module globs)).1 ↔
      hasDynamicSyntax source.text = true ∧ ∃ call ∈ root.preorder, ∃ s,
        call.importSpecifier? = some s ∧ (answer s module.withoutQuery).module? = some t := by
  cases htext : hasDynamicSyntax source.text with
  | false =>
    rw [value, collectDynamic_of_not_hasDynamicSyntax _ htext]
    simp
  | true =>
    have hwalk : (value (collectDynamic (Resolver.stateless answer) source module globs)).1 =
        value (walkDynamic (Resolver.stateless answer) root module globs) :=
      collectDynamic_of_hasDynamicSyntax _ hroot htext module globs ()
    rw [hwalk, walkDynamic, value_bind, value_askAll, value_pure, dynamicTargets, mem_distinct]
    simp only [List.mem_filterMap, List.mem_map, mem_distinct, mem_dynamicSpecifiers_iff, true_and]
    constructor
    · rintro ⟨_, ⟨s, ⟨call, hcall, hs⟩, rfl⟩, ht⟩
      exact ⟨call, hcall, s, hs, ht⟩
    · rintro ⟨call, hcall, s, hs, ht⟩
      exact ⟨_, ⟨s, ⟨call, hcall, hs⟩, rfl⟩, ht⟩

end Imports

/-! ## Router files -/

/-- Either there is a tree, or a reason why there is none. -/
lemma Script.Reading.message?_eq_none_iff {r : Reading} :
    r.message? = none ↔ ∃ root, r.root? = some root := by
  cases r <;> simp [Reading.message?, Reading.root?]

namespace Route

/-- Reading the routes of a script mirrors itself. -/
lemma mirrors_extract (h : ∀ s m, Settles good (resolve s m) (answer s m)) (source : Source)
    (importer : ModuleId) :
    Mirrors good (extract resolve source importer)
      (extract (Resolver.stateless answer) source importer) := by
  unfold extract
  refine (mirrors_askAll h _ _).bind fun answers => ?_
  dsimp only
  split
  · exact mirrors_pure _
  · exact (mirrors_askAll h _ _).bind fun _ => mirrors_pure _

/-- Reading one router file mirrors itself. -/
lemma mirrors_extractFile (h : ∀ s m, Settles good (resolve s m) (answer s m)) (d : Disk)
    (p : Path) :
    Mirrors good (extractFile resolve d p) (extractFile (Resolver.stateless answer) d p) := by
  unfold extractFile
  split
  · exact mirrors_pure _
  · split
    · exact mirrors_pure _
    · exact mirrors_extract h _ _

/-- Reading router files mirrors itself. -/
lemma mirrors_extractFiles (h : ∀ s m, Settles good (resolve s m) (answer s m)) (d : Disk)
    (known : Extraction) (ps : List Path) :
    Mirrors good (extractFiles resolve d known ps)
      (extractFiles (Resolver.stateless answer) d known ps) := by
  induction ps generalizing known with
  | nil => exact mirrors_pure _
  | cons p ps ih =>
    unfold extractFiles
    refine (mirrors_extractFile h d p).bind fun result => ?_
    split
    · exact mirrors_pure _
    · exact ih _

/-- What reading one router file comes to without a state. -/
def fileExtraction (answer : String → ModuleId → Answer) (d : Disk) (p : Path) :
    Except Endless Extraction :=
  value (extractFile (Resolver.stateless answer) d p)

/-- What one router file adds, nothing where its definitions never end. -/
def extractionAt (answer : String → ModuleId → Answer) (d : Disk) (p : Path) : Extraction :=
  match fileExtraction answer d p with
  | .ok found => found
  | .error _ => .empty

/-- Router files one after another. -/
lemma value_extractFiles_cons (d : Disk) (known : Extraction) (p : Path) (ps : List Path) :
    value (extractFiles (Resolver.stateless answer) d known (p :: ps)) =
      match fileExtraction answer d p with
      | .error e => .error { notices := known.notices ++ e.notices }
      | .ok found => value (extractFiles (Resolver.stateless answer) d (known.append found) ps) := by
  rw [extractFiles, value_bind, fileExtraction]
  split <;> simp_all

/-- What router files add is what each of them adds, one file after another. -/
lemma extractFiles_eq {d : Disk} {known found : Extraction} {ps : List Path}
    (h : value (extractFiles (Resolver.stateless answer) d known ps) = .ok found) :
    found.routes = known.routes ++ ps.flatMap (fun p => (extractionAt answer d p).routes) ∧
      found.imports =
        ps.foldl (fun table p => table.merge (extractionAt answer d p).imports) known.imports := by
  induction ps generalizing known with
  | nil =>
    cases h
    simp
  | cons p ps ih =>
    rw [value_extractFiles_cons] at h
    split at h
    · cases h
    · rename_i e he
      have hat : extractionAt answer d p = e := by rw [extractionAt, he]
      obtain ⟨hroutes, himports⟩ := ih h
      constructor
      · rw [hroutes, List.flatMap_cons, Extraction.append, hat, List.append_assoc]
      · rw [himports, List.foldl_cons, Extraction.append, hat]

/-- Router files are read to the end exactly when each of them is. -/
lemma exists_extractFiles_ok_iff {d : Disk} {known : Extraction} {ps : List Path} :
    (∃ found, value (extractFiles (Resolver.stateless answer) d known ps) = .ok found) ↔
      ∀ p ∈ ps, ∃ found, fileExtraction answer d p = .ok found := by
  induction ps generalizing known with
  | nil => simp [extractFiles]
  | cons p ps ih =>
    rw [value_extractFiles_cons, List.forall_mem_cons]
    cases fileExtraction answer d p with
    | error e => simp
    | ok found => simp [ih]

/-- A router file is read to the end unless it is a script with a definition that never ends. -/
lemma exists_fileExtraction_ok_iff {d : Disk} {p : Path} :
    (∃ found, fileExtraction answer d p = .ok found) ↔
      ∀ source, Source.ofFile d p = .ok source → definitions source ≠ none := by
  unfold fileExtraction extractFile
  split
  · rename_i hfile
    simp [hfile]
  · rename_i source hfile
    simp only [hfile, Except.ok.injEq, forall_eq']
    split
    · rename_i reason hreason
      have hroot : source.root? = none := by
        rw [Source.root?, Option.eq_none_iff_forall_ne_some]
        intro root hroot
        cases hreason.symm.trans (Reading.message?_eq_none_iff.2 ⟨root, hroot⟩)
      simp [definitions, hroot]
    · rw [extract, value_bind]
      cases hdefinitions : definitions source with
      | none => simp
      | some ds =>
        simp only [value_bind, value_pure, ne_eq, reduceCtorEq, not_false_eq_true, iff_true]
        exact ⟨_, rfl⟩

/-- A file that cannot be read as a script adds nothing but a notice. -/
lemma extractionAt_of_unread {d : Disk} {p : Path}
    (h : ∀ source, Source.ofFile d p = .ok source → source.root? = none) :
    (extractionAt answer d p).routes = [] ∧ (extractionAt answer d p).imports = Table.empty := by
  unfold extractionAt fileExtraction extractFile
  cases hfile : Source.ofFile d p with
  | error e => exact ⟨rfl, rfl⟩
  | ok source =>
    obtain ⟨reason, hreason⟩ : ∃ reason, source.reading.message? = some reason := by
      rw [← Option.ne_none_iff_exists', Ne, Reading.message?_eq_none_iff]
      rintro ⟨root, hroot⟩
      cases (h source hfile).symm.trans hroot
    simp only [hreason]
    exact ⟨rfl, rfl⟩

end Route

/-! ## Registration files -/

namespace Registration

/-- Reading one registration file mirrors itself. -/
lemma mirrors_collectFile (h : ∀ s m, Settles good (resolve s m) (answer s m)) (known : Collected)
    (file : File) :
    Mirrors good (collectFile resolve known file)
      (collectFile (Resolver.stateless answer) known file) := by
  unfold collectFile
  split
  · exact mirrors_pure _
  · exact (mirrors_askAll h _ _).bind fun _ => mirrors_pure _

/-- Reading registration files mirrors itself. -/
lemma mirrors_collect (h : ∀ s m, Settles good (resolve s m) (answer s m)) (files : List File) :
    Mirrors good (collect resolve files) (collect (Resolver.stateless answer) files) :=
  (mirrors_foldlM (mirrors_collectFile h) _ files).bind fun _ => mirrors_pure _

/-- What dependencies stand for after one more registration file. -/
def fileModules (answer : String → ModuleId → Answer) (known : Table DepId ModuleId) (file : File) :
    Table DepId ModuleId :=
  match file.code with
  | none => known
  | some code =>
    writeModules known (lazyEntries code)
      ((lazyEntries code).map fun e => answer e.specifier file.module)

/-- Reading one registration file without a state. -/
lemma modules_collectFile (known : Collected) (file : File) :
    (value (collectFile (Resolver.stateless answer) known file)).modules =
      fileModules answer known.modules file := by
  unfold collectFile fileModules
  cases file.code with
  | none => rfl
  | some code =>
    dsimp only
    rw [value_bind, value_askAll, List.map_map]
    rfl

/-- Reading registration files without a state: one after another. -/
lemma modules_collect (files : List File) :
    (value (collect (Resolver.stateless answer) files)).modules =
      files.foldl (fileModules answer) Table.empty := by
  have hfold : ∀ (known : Collected),
      (value (files.foldlM (collectFile (Resolver.stateless answer)) known)).modules =
        files.foldl (fileModules answer) known.modules := by
    induction files with
    | nil => exact fun _ => rfl
    | cons file files ih =>
      intro known
      rw [List.foldlM_cons, value_bind, ih, modules_collectFile, List.foldl_cons]
  exact hfold _

/-- Files that cannot be read do not change what dependencies stand for. -/
lemma foldl_fileModules_filter (known : Table DepId ModuleId) (files : List File) :
    (files.filter (·.code.isSome)).foldl (fileModules answer) known =
      files.foldl (fileModules answer) known := by
  rw [List.foldl_filter]
  congr 1
  funext table file
  cases hcode : file.code <;> simp [fileModules, hcode]

end Registration

end RouteAssets
