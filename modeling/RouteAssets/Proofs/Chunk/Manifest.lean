import RouteAssets.Chunk.Manifest
import RouteAssets.Proofs.Table

/-!
# Which chunks a manifest describes

The entries of a manifest are **typed** (`isTyped`) when each member is what a bundler writes: a
text for the file and for the source, and lists of texts for style sheets and imports, where there
are any.

A chunk is folded together from the entries of its file. What it holds is said by the entries alone
(`IsFolded`), and one further entry changes it accordingly (`addEntry_folded`). So after any number
of entries there is one chunk for each script that has been seen, and it is folded from the entries
seen so far (`HasSeen.addToChunks`, `HasSeen.foldlM`). For the whole manifest this is
`ofManifest_exact`.
-/

namespace RouteAssets

/-! ## Typed entries -/

namespace Json

/-- The text that a value is. -/
def text? : Json → Option String
  | string s => some s
  | _ => none

/-- Is a value a text, or is there none? -/
def isOptionalText : Json → Bool
  | null => true
  | string _ => true
  | _ => false

/-- Is a value a list of texts? -/
def isTextList : Json → Bool
  | array items => items.all fun j => j.text?.isSome
  | _ => false

end Json

namespace Chunk

open RouteAssets.Text

/-- Is each member of an entry what it should be, as far as it is there? -/
def isTyped (e : Entry) : Bool :=
  (valueOf e "file").isOptionalText && (valueOf e "src").isOptionalText &&
    ["css", "imports", "dynamicImports"].all fun name => (Table.lookup name e).all Json.isTextList

/-- Is a value a typed entry? -/
def isTypedEntry : Json → Bool
  | .object e => isTyped e
  | _ => false

/-- The text of a member; a missing one is empty. -/
def textOf (e : Entry) (name : String) : String := ((valueOf e name).text?).getD ""

/-- The texts that a member lists. -/
def textsOf (e : Entry) (name : String) : List String :=
  match Table.lookup name e with
  | some (.array items) => items.filterMap Json.text?
  | _ => []

/-- Is a member there that counts as true? -/
def isMarked (e : Entry) (name : String) : Bool := (valueOf e name).isTruthy

/-! ## What the entries say -/

/-- The script of an entry: its file, unless this is a style sheet. -/
def scriptOf? (e : Entry) : Option FileName :=
  if textOf e "file" = "" ∨ endsWith (textOf e "file") ".css" = true then none
  else some (textOf e "file")

/-- The module of an entry: its source, and without one its key, unless this starts with an
underscore. -/
def moduleOf? (root : Path) (entry : String × Entry) : Option ModuleId :=
  if textOf entry.2 "src" ≠ "" then some (describedModule root (textOf entry.2 "src"))
  else if startsWith entry.1 "_" = true then none
  else some (describedModule root entry.1)

/-- The file of the entry with a key, if there is such an entry and it has a file. -/
def fileOfKey? (entries : List (String × Entry)) (key : String) : Option FileName :=
  (Table.lookup key entries).bind fun e =>
    if textOf e "file" = "" then none else some (textOf e "file")

/-- The files of the entries that a member lists by their keys. -/
def importedFiles (entries : List (String × Entry)) (e : Entry) (name : String) : List FileName :=
  (textsOf e name).filterMap (fileOfKey? entries)

/-- A chunk is what some entries, those of its file, make of it: it has their modules one by one,
their style sheets and the files that they import at first occurrence, and is an entry chunk if one
of them is. The keys of imports are looked up in all entries. -/
structure IsFolded (root : Path) (entries own : List (String × Entry)) (c : Chunk Json) : Prop where
  modules : c.modules = own.filterMap (moduleOf? root)
  styles : ∃ names : List String, c.styles = names.map Json.string ∧
    IsFirstSeen (own.flatMap fun entry => textsOf entry.2 "css") names
  imports : IsFirstSeen (own.flatMap fun entry => importedFiles entries entry.2 "imports") c.imports
  dynamicImports :
    IsFirstSeen (own.flatMap fun entry => importedFiles entries entry.2 "dynamicImports")
      c.dynamicImports
  isEntry : c.isEntry = own.any fun entry => isMarked entry.2 "isEntry"
  isDynamicEntry : c.isDynamicEntry = own.any fun entry => isMarked entry.2 "isDynamicEntry"

/-- The entries of a file. -/
def entriesOfFile (entries : List (String × Entry)) (file : FileName) : List (String × Entry) :=
  entries.filter fun entry => textOf entry.2 "file" == file

/-! ## Reading typed entries -/

section Reading

variable {root : Path} {entries : List (String × Entry)} {e : Entry} {key name : String}

/-- A typed entry has a text for its file and for its source, if it has any. -/
lemma isOptionalText_of_isTyped (he : isTyped e = true) :
    (valueOf e "file").isOptionalText = true ∧ (valueOf e "src").isOptionalText = true := by
  simp only [isTyped, Bool.and_eq_true] at he
  exact he.1

/-- The file of a typed entry is loaded as a script if it is one. -/
lemma scriptFile?_eq (he : isTyped e = true) : scriptFile? e = .ok (scriptOf? e) := by
  have hfile := (isOptionalText_of_isTyped he).1
  unfold scriptFile? scriptOf? textOf
  cases hvalue : valueOf e "file" with
  | null => rfl
  | string f =>
    by_cases hempty : f = ""
    · simp [hempty, Json.isTruthy, Json.text?]
    · cases hstyle : endsWith f ".css" <;> simp [hempty, hstyle, Json.isTruthy, Json.text?]
  | _ => simp [hvalue, Json.isOptionalText] at hfile

/-- The module of a typed entry is known. -/
lemma moduleOf_eq (he : isTyped e = true) :
    moduleOf root key e = .ok (moduleOf? root (key, e)).toList := by
  have hsource := (isOptionalText_of_isTyped he).2
  have hkeyed : (if startsWith key "_" = true then Except.ok []
      else Except.ok [describedModule root key] : Except ManifestError (List ModuleId)) =
      .ok (if startsWith key "_" = true then none else some (describedModule root key)).toList := by
    split <;> rfl
  unfold moduleOf moduleOf? textOf
  cases hvalue : valueOf e "src" with
  | null => exact hkeyed
  | string s =>
    by_cases hempty : s = ""
    · rw [hempty]
      exact hkeyed
    · simp [hempty, Json.isTruthy, Json.text?]
  | _ => simp [hvalue, Json.isOptionalText] at hsource

/-- A list of texts is what its texts make up. -/
lemma map_string_filterMap {items : List Json}
    (hitems : (items.all fun j => j.text?.isSome) = true) :
    (items.filterMap Json.text?).map Json.string = items := by
  induction items with
  | nil => rfl
  | cons j items ih =>
    rw [List.all_cons, Bool.and_eq_true] at hitems
    cases j with
    | string s =>
      rw [List.filterMap_cons, Json.text?, List.map_cons, ih hitems.2]
    | _ => exact absurd hitems.1 (by simp [Json.text?])

/-- The items of a list member of a typed entry are its texts. -/
lemma itemsOf_eq (he : isTyped e = true) (hname : name ∈ ["css", "imports", "dynamicImports"]) :
    itemsOf e name = .ok ((textsOf e name).map Json.string) := by
  simp only [isTyped, Bool.and_eq_true, List.all_eq_true] at he
  have hlist := he.2 name hname
  unfold itemsOf textsOf
  cases hvalue : Table.lookup name e with
  | none => rfl
  | some j =>
    rw [hvalue, Option.all_some] at hlist
    cases j with
    | array items => exact congrArg Except.ok (map_string_filterMap hlist).symm
    | _ => cases hlist

/-- The files of some keys are those of the entries with these keys. -/
lemma filesByKeys_eq (hkeys : (entries.map Prod.fst).Nodup)
    (htyped : ∀ entry ∈ entries, isTyped entry.2 = true) (keys : List String) :
    filesByKeys (fileByKey entries) (keys.map Json.string) =
      .ok (keys.filterMap (fileOfKey? entries)) := by
  have hget : ∀ key, (fileByKey entries).get? key =
      (Table.lookup key entries).map fun e => valueOf e "file" := by
    intro key
    have hfiles : fileByKey entries =
        Table.ofList (entries.map fun entry => (entry.1, valueOf entry.2 "file")) := rfl
    have hkeys' : ((entries.map fun entry => (entry.1, valueOf entry.2 "file")).map
        Prod.fst).Nodup := by
      simpa [List.map_map, Function.comp_def] using hkeys
    rw [hfiles, Table.get?, Table.entries_ofList hkeys']
    exact Table.lookup_map (fun _ e => valueOf e "file") entries key
  induction keys with
  | nil => rfl
  | cons key keys ih =>
    rw [List.map_cons, filesByKeys, ih, hget, List.filterMap_cons, fileOfKey?]
    cases hlookup : Table.lookup key entries with
    | none => rfl
    | some e =>
      have hfile := (isOptionalText_of_isTyped (htyped _ (Table.mem_of_lookup hlookup))).1
      rw [Option.map_some, Option.bind_some, textOf]
      dsimp only at hfile ⊢
      cases hvalue : valueOf e "file" with
      | null => rfl
      | string f =>
        by_cases hempty : f = ""
        · rw [hempty]
          rfl
        · simp [hempty, Json.text?, pure, Except.pure, bind, Except.bind]
      | _ => simp [hvalue, Json.isOptionalText] at hfile

/-- The files that a member of a typed entry lists by their keys. -/
lemma filesByKeys_itemsOf (hkeys : (entries.map Prod.fst).Nodup)
    (htyped : ∀ entry ∈ entries, isTyped entry.2 = true) (he : isTyped e = true)
    (hname : name ∈ ["css", "imports", "dynamicImports"]) :
    (itemsOf e name >>= filesByKeys (fileByKey entries)) = .ok (importedFiles entries e name) := by
  rw [itemsOf_eq he hname]
  exact filesByKeys_eq hkeys htyped (textsOf e name)

end Reading

/-! ## One entry after the other -/

section Folding

variable {root : Path} {entries own : List (String × Entry)}

/-- The chunk that some entries make of a file. -/
def folded (root : Path) (entries : List (String × Entry)) (file : FileName)
    (own : List (String × Entry)) : Chunk Json where
  file
  modules := own.filterMap (moduleOf? root)
  styles := (distinct (own.flatMap fun entry => textsOf entry.2 "css")).map Json.string
  imports := distinct (own.flatMap fun entry => importedFiles entries entry.2 "imports")
  dynamicImports :=
    distinct (own.flatMap fun entry => importedFiles entries entry.2 "dynamicImports")
  isEntry := own.any fun entry => isMarked entry.2 "isEntry"
  isDynamicEntry := own.any fun entry => isMarked entry.2 "isDynamicEntry"

/-- It is what these entries make of it. -/
lemma isFolded_folded (file : FileName) :
    IsFolded root entries own (folded root entries file own) :=
  { modules := rfl
    styles := ⟨_, rfl, isFirstSeen_distinct _⟩
    imports := isFirstSeen_distinct _
    dynamicImports := isFirstSeen_distinct _
    isEntry := rfl
    isDynamicEntry := rfl }

/-- Style sheets that are named by texts are added at their first occurrence. -/
lemma foldl_addStyle_map (names names' : List String) :
    (names'.map Json.string).foldl addStyle (names.map Json.string) =
      (addAll names names').map Json.string := by
  induction names' generalizing names with
  | nil => rfl
  | cons name names' ih =>
    have hadd : addStyle (names.map Json.string) (.string name) =
        (addNew names name).map Json.string := by
      have hany : (names.map Json.string).any (Json.string name).same = decide (name ∈ names) := by
        have hsame : (Json.string name).same ∘ Json.string = (name == ·) := by
          funext name'
          rw [Function.comp_apply, Json.same]
        rw [List.any_map, hsame, List.any_beq, List.contains_eq_mem]
      unfold addStyle addNew
      rw [hany]
      split <;> simp_all
    rw [List.map_cons, List.foldl_cons, hadd, ih]
    rfl

/-- A further entry adds what it says to the chunk of its file. -/
lemma addEntry_folded (hkeys : (entries.map Prod.fst).Nodup)
    (htyped : ∀ entry ∈ entries, isTyped entry.2 = true) {entry : String × Entry}
    (hentry : entry ∈ entries) (file : FileName) :
    addEntry root (fileByKey entries) entry.1 entry.2 (folded root entries file own) =
      .ok (folded root entries file (own ++ [entry])) := by
  have he := htyped entry hentry
  unfold addEntry
  simp only [← bind_assoc]
  rw [moduleOf_eq he, itemsOf_eq he (by simp), filesByKeys_itemsOf hkeys htyped he (by simp),
    filesByKeys_itemsOf hkeys htyped he (by simp)]
  have hmodules : own.filterMap (moduleOf? root) ++ (moduleOf? root entry).toList =
      (own ++ [entry]).filterMap (moduleOf? root) := by
    rw [List.filterMap_append, List.filterMap_cons, List.filterMap_nil]
    cases moduleOf? root entry <;> rfl
  have hstyles := foldl_addStyle_map (distinct (own.flatMap fun entry => textsOf entry.2 "css"))
    (textsOf entry.2 "css")
  simp only [folded, List.flatMap_append, List.flatMap_singleton, List.any_append, List.any_cons,
    List.any_nil, Bool.or_false, distinct_append, ← hmodules, ← hstyles]
  rfl

/-- The chunks after some entries of a manifest: one for each script that has been seen, in this
order, folded from the entries of its file. -/
structure HasSeen (root : Path) (entries done : List (String × Entry))
    (chunks : Table FileName (Chunk Json)) : Prop where
  keys : chunks.keys = distinct (done.filterMap fun entry => scriptOf? entry.2)
  get? : ∀ file, chunks.get? file =
    if file ∈ done.filterMap fun entry => scriptOf? entry.2 then
      some (folded root entries file (entriesOfFile done file))
    else none

/-- Entries of one file have the same script. -/
lemma scriptOf?_eq_some_iff {e e' : Entry} {file : FileName} (h : scriptOf? e = some file) :
    scriptOf? e' = some file ↔ textOf e' "file" = file := by
  unfold scriptOf? at h ⊢
  split at h
  · cases h
  · rename_i hscript
    cases h
    constructor
    · intro h'
      split at h'
      · cases h'
      · exact Option.some.inj h'
    · intro hfile
      rw [hfile, if_neg hscript]

/-- Before a script has been seen, no entry has its file. -/
lemma entriesOfFile_eq_nil {done : List (String × Entry)} {e : Entry} {file : FileName}
    (hscript : scriptOf? e = some file)
    (hnew : file ∉ done.filterMap fun entry => scriptOf? entry.2) :
    entriesOfFile done file = [] := by
  rw [entriesOfFile, List.filter_eq_nil_iff]
  intro entry hentry hfile
  refine hnew (List.mem_filterMap.2 ⟨entry, hentry, ?_⟩)
  exact (scriptOf?_eq_some_iff hscript).2 (beq_iff_eq.1 hfile)

/-- A further entry belongs to the file of a script if it has the same one. -/
lemma entriesOfFile_concat {e : Entry} {file : FileName} (hscript : scriptOf? e = some file)
    (done : List (String × Entry)) (entry : String × Entry) :
    entriesOfFile (done ++ [entry]) file =
      if scriptOf? entry.2 = some file then entriesOfFile done file ++ [entry]
      else entriesOfFile done file := by
  simp only [scriptOf?_eq_some_iff hscript]
  by_cases hfile : textOf entry.2 "file" = file <;> simp [entriesOfFile, hfile]

/-- A further entry is added to the chunk of its file, if it has a script. -/
lemma HasSeen.addToChunks (hkeys : (entries.map Prod.fst).Nodup)
    (htyped : ∀ entry ∈ entries, isTyped entry.2 = true) {done : List (String × Entry)}
    {chunks : Table FileName (Chunk Json)} (hseen : HasSeen root entries done chunks)
    {entry : String × Entry} (hentry : entry ∈ entries) :
    ∃ chunks', Chunk.addToChunks root (fileByKey entries) chunks entry = .ok chunks' ∧
      HasSeen root entries (done ++ [entry]) chunks' := by
  have hscripts : (done ++ [entry]).filterMap (fun entry => scriptOf? entry.2) =
      (done.filterMap fun entry => scriptOf? entry.2) ++ (scriptOf? entry.2).toList := by
    cases hscript : scriptOf? entry.2 <;> simp [hscript]
  unfold Chunk.addToChunks
  rw [scriptFile?_eq (htyped entry hentry)]
  cases hscript : scriptOf? entry.2 with
  | none =>
    refine ⟨chunks, rfl, ?_, fun file => ?_⟩
    · rw [hseen.keys, hscripts, hscript, Option.toList_none, List.append_nil]
    · rw [hseen.get?, hscripts, hscript, Option.toList_none, List.append_nil]
      split
      · rename_i hmem
        obtain ⟨other, -, hother⟩ := List.mem_filterMap.1 hmem
        rw [entriesOfFile_concat hother, hscript, if_neg nofun]
      · rfl
  | some script =>
    have hchunk : chunks.getD script (ofFile script) =
        folded root entries script (entriesOfFile done script) := by
      rw [Table.getD, hseen.get?]
      split
      · rfl
      · rename_i hnew
        rw [entriesOfFile_eq_nil hscript hnew]
        rfl
    have hadded : addEntry root (fileByKey entries) entry.1 entry.2
        (chunks.getD script (ofFile script)) =
        .ok (folded root entries script (entriesOfFile done script ++ [entry])) := by
      rw [hchunk]
      exact addEntry_folded hkeys htyped hentry script
    refine ⟨chunks.insert script
      (folded root entries script (entriesOfFile done script ++ [entry])),
      ?_, ?_, fun file => ?_⟩
    · change (addEntry _ _ _ _ _ >>= _) = _
      rw [hadded]
      rfl
    · rw [Table.keys_insert, hseen.keys, hscripts, hscript, Option.toList_some, distinct_append]
      rfl
    · rw [Table.get?_insert, hseen.get?, hscripts, hscript, Option.toList_some]
      by_cases hfile : script = file
      · subst hfile
        rw [if_pos rfl, if_pos (by simp), entriesOfFile_concat hscript, if_pos hscript]
      · have hmem : file ∈ [script] ↔ False := by simp [Ne.symm hfile]
        simp only [if_neg hfile, List.mem_append, hmem, or_false]
        split
        · rename_i hmem
          obtain ⟨other, -, hother⟩ := List.mem_filterMap.1 hmem
          rw [entriesOfFile_concat hother, hscript, if_neg fun h => hfile (Option.some.inj h)]
        · rfl

/-- All entries are added, one after the other. -/
lemma HasSeen.foldlM (hkeys : (entries.map Prod.fst).Nodup)
    (htyped : ∀ entry ∈ entries, isTyped entry.2 = true) {done more : List (String × Entry)}
    (hmore : ∀ entry ∈ more, entry ∈ entries) {chunks : Table FileName (Chunk Json)}
    (hseen : HasSeen root entries done chunks) :
    ∃ chunks', more.foldlM (Chunk.addToChunks root (fileByKey entries)) chunks = .ok chunks' ∧
      HasSeen root entries (done ++ more) chunks' := by
  induction more generalizing done chunks with
  | nil => exact ⟨chunks, rfl, by rwa [List.append_nil]⟩
  | cons entry more ih =>
    obtain ⟨hentry, hmore⟩ := List.forall_mem_cons.1 hmore
    obtain ⟨chunks₁, hstep, hseen₁⟩ := hseen.addToChunks hkeys htyped hentry
    obtain ⟨chunks', hrest, hseen'⟩ := ih hmore hseen₁
    refine ⟨chunks', ?_, by rwa [List.append_assoc, List.singleton_append] at hseen'⟩
    rw [List.foldlM_cons, hstep]
    exact hrest

end Folding

/-! ## Manifests -/

/-- The keys of the entries are among those of the manifest. -/
lemma sublist_keys_entriesOf (manifest : List (String × Json)) :
    ((entriesOf manifest).map Prod.fst).Sublist (manifest.map Prod.fst) := by
  induction manifest with
  | nil => exact List.Sublist.slnil
  | cons member manifest ih =>
    obtain ⟨key, value⟩ := member
    cases value with
    | object e => exact ih.cons_cons key
    | _ => exact ih.cons key

/-- The entries of a manifest with typed entries are typed. -/
lemma isTyped_of_mem_entriesOf {manifest : List (String × Json)}
    (htyped : ∀ member ∈ manifest, isTypedEntry member.2 = true) {entry : String × Entry}
    (hentry : entry ∈ entriesOf manifest) : isTyped entry.2 = true := by
  obtain ⟨⟨key, value⟩, hmember, hvalue⟩ := List.mem_filterMap.1 hentry
  cases value with
  | object e =>
    cases hvalue
    exact htyped _ hmember
  | _ => cases hvalue

/-- **A manifest describes one chunk for each script.** When all members of a manifest are typed
entries, there is exactly one chunk for each file that is no style sheet, in the order in which
these files are first named. The chunk is folded from the entries of its file: it has a module for
each of them that has a source or a key without an underscore, and at first occurrence their style
sheets and the files of the entries that they import, wherever in the manifest these are. -/
theorem ofManifest_exact (root : Path) {manifest : List (String × Json)}
    (hkeys : (manifest.map Prod.fst).Nodup)
    (htyped : ∀ member ∈ manifest, isTypedEntry member.2 = true) :
    ∃ chunks, ofManifest root manifest = .ok chunks ∧
      IsFirstSeen ((entriesOf manifest).filterMap fun entry => scriptOf? entry.2)
        (chunks.map Chunk.file) ∧
      ∀ c ∈ chunks,
        IsFolded root (entriesOf manifest) (entriesOfFile (entriesOf manifest) c.file) c := by
  have hnone : HasSeen root (entriesOf manifest) [] Table.empty := ⟨rfl, fun _ => rfl⟩
  obtain ⟨chunks, hfold, hseen⟩ := hnone.foldlM (hkeys.sublist (sublist_keys_entriesOf manifest))
    (fun _ => isTyped_of_mem_entriesOf htyped) (fun _ => id)
  rw [List.nil_append] at hseen
  have hfolded : ∀ entry ∈ chunks.entries, entry.2 =
      folded root (entriesOf manifest) entry.1 (entriesOfFile (entriesOf manifest) entry.1) := by
    intro entry hentry
    have hget := Table.mem_entries_iff.1 hentry
    rw [hseen.get?] at hget
    split at hget
    · exact (Option.some.inj hget).symm
    · cases hget
  refine ⟨chunks.values, ?_, ?_, ?_⟩
  · change (List.foldlM _ _ _ >>= _) = _
    rw [hfold]
    rfl
  · have hfiles : chunks.values.map Chunk.file = chunks.keys := by
      rw [Table.values, List.map_map]
      exact List.map_congr_left fun entry hentry => congrArg Chunk.file (hfolded entry hentry)
    rw [hfiles, hseen.keys]
    exact isFirstSeen_distinct _
  · intro c hc
    obtain ⟨entry, hentry, rfl⟩ := List.mem_map.1 hc
    rw [hfolded entry hentry]
    exact isFolded_folded _

/-- A manifest in which two keys have one file, one of them imports a shared chunk that comes later,
and one has style sheets only. -/
def sharedManifest : List (String × Json) :=
  [ ("a.ts", .object [("file", .string "x.js"), ("css", .array [.string "m.css"]),
      ("imports", .array [.string "_s.js"]), ("isEntry", .bool true)]),
    ("_s.js", .object [("file", .string "s.js")]),
    ("m.css", .object [("file", .string "m.css")]),
    ("_b", .object [("file", .string "x.js"), ("src", .string "b.ts"),
      ("css", .array [.string "n.css", .string "m.css"]),
      ("imports", .array [.string "m.css", .string "missing", .string "_s.js"])]) ]

/-- Its two chunks are folded from their entries. -/
theorem ofManifest_exact_of_shared :
    ∃ chunks, ofManifest ⟨.root, ["app"]⟩ sharedManifest = .ok chunks ∧
      (chunks.map fun c => (c.file, c.modules, c.imports)) =
        [("x.js", ["/app/a.ts", "/app/b.ts"], ["s.js", "m.css"]), ("s.js", [], [])] ∧
      ∀ c ∈ chunks, IsFolded ⟨.root, ["app"]⟩ (entriesOf sharedManifest)
        (entriesOfFile (entriesOf sharedManifest) c.file) c := by
  have hkeys : (sharedManifest.map Prod.fst).Nodup := by decide
  obtain ⟨chunks, hchunks, -, hfolded⟩ := ofManifest_exact ⟨.root, ["app"]⟩ hkeys (by decide)
  have hcomputed : ((ofManifest ⟨.root, ["app"]⟩ sharedManifest).toOption.map fun chunks =>
      chunks.map fun c => (c.file, c.modules, c.imports)) =
      some [("x.js", ["/app/a.ts", "/app/b.ts"], ["s.js", "m.css"]), ("s.js", [], [])] := by
    decide +kernel
  rw [hchunks] at hcomputed
  exact ⟨chunks, hchunks, Option.some.inj hcomputed, hfolded⟩

end Chunk

end RouteAssets
