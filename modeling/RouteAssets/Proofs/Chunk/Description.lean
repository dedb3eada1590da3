import RouteAssets.Chunk.Bundle
import Mathlib.Tactic.Lemma

/-!
# Which descriptions of a bundle are reported

A description that does not give the chunks of a bundle is either reported, or it has a fault that
nothing reports.

* **Chunk lists** are checked: whatever is wrong with one is reported (`message?_ofChunkList`).
* **Manifests** are not checked: one can be used exactly if each of its entries can be
  (`isOk_ofManifest`), which is a matter of what the entry itself holds where a text or a list is
  needed (`isUsable`).
* **Files** (`load_isHandled_iff`): loading answers or fails with a report exactly if the
  description has none of four faults (`HasFault`): a path with a null character, bytes that are no
  text, a number that is too long, and an entry of a manifest that cannot be used.
-/

namespace RouteAssets

/-! ## Failures in what follows one another -/

section Except

variable {ε α β : Type}

/-- What follows one another answers if the first part does and then the second one. -/
lemma isOk_bind {x : Except ε α} {next : α → Except ε β} {b : Bool} (h : ∀ a, (next a).isOk = b) :
    (x >>= next).isOk = (x.isOk && b) := by
  cases x with
  | error e => rfl
  | ok a => exact h a

/-- Adding one item after the other answers if each of them can be added to anything. -/
lemma isOk_foldlM {add : β → α → Except ε β} {p : α → Bool} (h : ∀ b a, (add b a).isOk = p a)
    (as : List α) (b : β) : (as.foldlM add b).isOk = as.all p := by
  induction as generalizing b with
  | nil => rfl
  | cons a as ih => rw [List.foldlM_cons, isOk_bind fun b' => ih b', h, List.all_cons]

/-- A list breaks off where one of its items does. -/
lemma exists_error_of_mapM {f : α → Except ε β} {as : List α} {x : ε} (h : as.mapM f = .error x) :
    ∃ a ∈ as, f a = .error x := by
  induction as with
  | nil => cases h
  | cons a as ih =>
    rw [List.mapM_cons] at h
    cases ha : f a with
    | error y =>
      rw [ha] at h
      cases h
      exact ⟨a, List.mem_cons_self, ha⟩
    | ok b =>
      rw [ha] at h
      cases has : as.mapM f with
      | error y =>
        rw [has] at h
        cases h
        obtain ⟨a', hmem, ha'⟩ := ih has
        exact ⟨a', List.mem_cons_of_mem a hmem, ha'⟩
      | ok bs =>
        rw [has] at h
        cases h

end Except

/-! ## Values in a manifest -/

namespace Json

/-- Is a value a text, unless it counts as false? -/
def isTextIfTrue : Json → Bool
  | string _ => true
  | j => !j.isTruthy

/-- A value that counts as false need not be a text. -/
lemma isTextIfTrue_of_not_isTruthy {j : Json} (h : j.isTruthy = false) : j.isTextIfTrue = true := by
  cases j <;> simp [isTextIfTrue, h]

/-- Can a value be gone through? -/
def isIterable : Json → Bool
  | array _ => true
  | string _ => true
  | object _ => true
  | _ => false

/-- Can a value be gone through, by items that may be keys? -/
def listsKeys : Json → Bool
  | array items => items.all isScalar
  | j => j.isIterable

end Json

namespace Chunk

open RouteAssets.Text

variable (root : Path) (files : Table String Json) (key name : String) (e : Entry)

/-- Can an entry of a manifest be used? The file must be a text, if there is one. For a script this
holds of the source as well, its style sheets must be something to go through, and what it imports
must be keys. -/
def isUsable : Bool :=
  match valueOf e "file" with
  | .string f =>
    f == "" || endsWith f ".css" ||
      ((valueOf e "src").isTextIfTrue && (Table.lookup "css" e).all Json.isIterable &&
        (Table.lookup "imports" e).all Json.listsKeys &&
        (Table.lookup "dynamicImports" e).all Json.listsKeys)
  | file => !file.isTruthy

/-- The module of an entry is known unless its source is something else than a text. -/
lemma isOk_moduleOf : (moduleOf root key e).isOk = (valueOf e "src").isTextIfTrue := by
  unfold moduleOf
  cases htrue : (valueOf e "src").isTruthy with
  | false =>
    rw [Json.isTextIfTrue_of_not_isTruthy htrue]
    by_cases hshared : startsWith key "_" = true <;>
      simp [htrue, hshared, Except.isOk, Except.toBool]
  | true =>
    cases hsource : valueOf e "src" <;> rw [hsource] at htrue <;>
      simp [htrue, Json.isTextIfTrue, Except.isOk, Except.toBool]

/-- The items of a member are there if the member can be gone through. -/
lemma isOk_itemsOf : (itemsOf e name).isOk = (Table.lookup name e).all Json.isIterable := by
  unfold itemsOf
  cases Table.lookup name e with
  | none => rfl
  | some j => cases j <;> rfl

/-- The files of some keys are there if the keys can be looked up. -/
lemma isOk_filesByKeys (keys : List Json) :
    (filesByKeys files keys).isOk = keys.all Json.isScalar := by
  induction keys with
  | nil => rfl
  | cons k keys ih =>
    cases k with
    | string s =>
      rw [filesByKeys, isOk_bind (b := true), ih, Bool.and_true]
      · simp [Json.isScalar]
      · intro rest
        split <;> rfl
    | array items => rfl
    | object members => rfl
    | _ => exact ih

/-- The files that a member names are there if what it lists are keys. -/
lemma isOk_filesOf :
    (itemsOf e name >>= filesByKeys files).isOk = (Table.lookup name e).all Json.listsKeys := by
  unfold itemsOf
  cases Table.lookup name e with
  | none => rfl
  | some j =>
    cases j with
    | array items => exact isOk_filesByKeys files items
    | string s =>
      refine (isOk_filesByKeys files _).trans ?_
      simp [Json.isScalar, Json.listsKeys, Json.isIterable]
    | object members =>
      refine (isOk_filesByKeys files _).trans ?_
      simp [Json.isScalar, Json.listsKeys, Json.isIterable]
    | _ => rfl

/-- An entry can be added to a chunk if its source, its style sheets and what it imports are as they
must be for a script. -/
lemma isOk_addEntry (c : Chunk Json) :
    (addEntry root files key e c).isOk =
      ((valueOf e "src").isTextIfTrue && (Table.lookup "css" e).all Json.isIterable &&
        (Table.lookup "imports" e).all Json.listsKeys &&
        (Table.lookup "dynamicImports" e).all Json.listsKeys) := by
  unfold addEntry
  -- Only the questions to the entry can fail, and each of them comes before what needs its answer.
  simp only [← bind_assoc]
  rw [isOk_bind fun modules => isOk_bind fun styles => isOk_bind fun imports =>
      isOk_bind (b := true) fun _ => rfl,
    isOk_moduleOf, isOk_itemsOf, isOk_filesOf, isOk_filesOf, Bool.and_true, Bool.and_assoc,
    Bool.and_assoc]

/-- A file that is a text is the one of a script, unless it is empty or a style sheet. -/
lemma scriptFile?_of_string {f : String} (h : valueOf e "file" = .string f) :
    scriptFile? e = .ok (if f == "" || endsWith f ".css" then none else some f) := by
  unfold scriptFile?
  by_cases hempty : f = "" <;> simp [h, Json.isTruthy, hempty]

/-- A file that is no text does no harm if it counts as false. -/
lemma scriptFile?_of_not_string (h : ∀ f, valueOf e "file" ≠ .string f) :
    scriptFile? e = if (valueOf e "file").isTruthy then .error .notText else .ok none := by
  unfold scriptFile?
  cases hfile : valueOf e "file" with
  | string f => exact absurd hfile (h f)
  | _ => rfl

/-- An entry can be added to the chunks if it can be used. -/
lemma isOk_addToChunks (chunks : Table FileName (Chunk Json)) :
    (addToChunks root files chunks (key, e)).isOk = isUsable e := by
  have hscript : ∀ f, (do
      let c ← addEntry root files key e (chunks.getD f (ofFile f))
      return chunks.insert f c).isOk =
        (addEntry root files key e (chunks.getD f (ofFile f))).isOk :=
    fun f => (isOk_bind (b := true) fun _ => rfl).trans (Bool.and_true _)
  unfold addToChunks isUsable
  cases hfile : valueOf e "file" with
  | string f =>
    rw [scriptFile?_of_string e hfile]
    dsimp only
    cases hskipped : f == "" || endsWith f ".css" with
    | true => rfl
    | false => exact (hscript f).trans (isOk_addEntry root files key e _)
  | _ =>
    rw [scriptFile?_of_not_string e (by simp [hfile]), hfile]
    dsimp only
    split <;> rename_i htrue
    · rw [htrue]
      rfl
    · rw [Bool.not_eq_true] at htrue
      rw [htrue]
      rfl

/-- The entries of a manifest are its members that are objects. -/
lemma mem_entriesOf_iff {manifest : List (String × Json)} :
    (key, e) ∈ entriesOf manifest ↔ (key, .object e) ∈ manifest := by
  unfold entriesOf
  rw [List.mem_filterMap]
  constructor
  · rintro ⟨⟨key', value⟩, hmem, hvalue⟩
    cases value with
    | object members =>
      cases hvalue
      exact hmem
    | _ => cases hvalue
  · exact fun hmem => ⟨(key, .object e), hmem, rfl⟩

/-- A manifest can be used if each of its entries can be. -/
lemma isOk_ofManifest (manifest : List (String × Json)) :
    (ofManifest root manifest).isOk = (entriesOf manifest).all fun entry => isUsable entry.2 := by
  unfold ofManifest
  have hentries := isOk_foldlM (fun chunks entry =>
    isOk_addToChunks root (fileByKey (entriesOf manifest)) entry.1 entry.2 chunks)
    (entriesOf manifest) Table.empty
  exact (isOk_bind (b := true) fun _ => rfl).trans ((Bool.and_true _).trans hentries)

/-- A manifest that cannot be used has an entry that cannot be. -/
lemma exists_error_ofManifest_iff (manifest : List (String × Json)) :
    (∃ x, ofManifest root manifest = .error x) ↔
      ∃ key e, (key, .object e) ∈ manifest ∧ isUsable e = false := by
  have hall := isOk_ofManifest root manifest
  cases hmanifest : ofManifest root manifest with
  | error x =>
    rw [hmanifest] at hall
    obtain ⟨⟨key, e⟩, hmem, hentry⟩ := List.all_eq_false.1 hall.symm
    rw [Bool.not_eq_true] at hentry
    exact ⟨fun _ => ⟨key, e, (mem_entriesOf_iff key e).1 hmem, hentry⟩, fun _ => ⟨x, rfl⟩⟩
  | ok cs =>
    rw [hmanifest] at hall
    constructor
    · rintro ⟨x, hx⟩
      cases hx
    · rintro ⟨key, e, hmem, hentry⟩
      have husable := List.all_eq_true.1 hall.symm (key, e) ((mem_entriesOf_iff key e).2 hmem)
      rw [hentry] at husable
      cases husable

end Chunk

/-! ## Files -/

namespace Bundle

variable {d : Disk} {path root : Path}

/-- An answer that whoever asks for a bundle can deal with: its chunks, or a failure that has a
report. -/
def IsHandled (answer : Except BundleError (List (Chunk Json))) : Prop :=
  (∃ cs, answer = .ok cs) ∨ ∃ x message, answer = .error x ∧ x.message? = some message

/-- A fault of the description of a bundle that nothing reports. -/
inductive HasFault (d : Disk) (path : Path) : Prop where
  | path (h : d.readBytes path = .error .nulInPath)
  | encoding (bytes : List UInt8) (h : d.readBytes path = .ok bytes)
      (hbytes : Text.readUtf8 bytes = none)
  | number (text : String) (h : d.readText path = .ok text)
      (htext : Json.read text = .error .numberTooLong)
  | entry (text : String) (members : List (String × Json)) (key : String) (e : Chunk.Entry)
      (h : d.readText path = .ok text) (htext : Json.read text = .ok (.object members))
      (hlist : ∀ items, Table.lookup "chunks" members ≠ some (.array items))
      (hmanifest : isManifest members = true) (hmem : (key, .object e) ∈ members)
      (hentry : Chunk.isUsable e = false)

/-- Whatever is wrong with a list of chunks is reported. -/
lemma message?_ofChunkList {items : List Json} {x : BundleError}
    (h : ofChunkList root items = .error x) : x.message? = some "Invalid chunk entry" := by
  obtain ⟨item, -, hitem⟩ := exists_error_of_mapM h
  cases hchunk : Chunk.ofJson item with
  | error vs =>
    rw [hchunk] at hitem
    cases hitem
    rfl
  | ok c =>
    rw [hchunk] at hitem
    cases hitem

/-- A failure on a manifest is unreported, and there is one exactly where an entry cannot be used.
-/
lemma unreported_ofManifest_iff {members : List (String × Json)} :
    (∃ x, (Chunk.ofManifest root members).mapError .manifest = .error x ∧
        BundleError.message? x = none) ↔
      ∃ key e, (key, .object e) ∈ members ∧ Chunk.isUsable e = false := by
  rw [← Chunk.exists_error_ofManifest_iff root]
  cases Chunk.ofManifest root members with
  | ok cs =>
    constructor
    · rintro ⟨x, hx, -⟩
      cases hx
    · rintro ⟨x, hx⟩
      cases hx
  | error x => exact ⟨fun _ => ⟨x, rfl⟩, fun _ => ⟨.manifest x, rfl, rfl⟩⟩

/-- A failure on a value is unreported exactly where this is a manifest with an entry that cannot be
used. -/
lemma unreported_ofJson_iff {name : String} {j : Json} :
    (∃ x, ofJson name root j = .error x ∧ x.message? = none) ↔
      ∃ members, j = .object members ∧
        (∀ items, Table.lookup "chunks" members ≠ some (.array items)) ∧
        isManifest members = true ∧
        ∃ key e, (key, .object e) ∈ members ∧ Chunk.isUsable e = false := by
  cases j with
  | object members =>
    simp only [Json.object.injEq, exists_eq_left', ofJson]
    split
    · rename_i items hlist
      constructor
      · rintro ⟨x, hx, hmessage⟩
        rw [message?_ofChunkList hx] at hmessage
        cases hmessage
      · rintro ⟨hno, -⟩
        exact absurd hlist (hno items)
    · rename_i hlist
      split
      · rename_i hmanifest
        rw [unreported_ofManifest_iff]
        exact ⟨fun h => ⟨hlist, hmanifest, h⟩, fun h => h.2.2⟩
      · rename_i hmanifest
        constructor
        · rintro ⟨x, hx, hmessage⟩
          cases hx
          cases hmessage
        · rintro ⟨-, h, -⟩
          exact absurd h hmanifest
  | _ =>
    constructor
    · rintro ⟨x, hx, hmessage⟩
      cases hx
      cases hmessage
    · rintro ⟨members, hj, -⟩
      cases hj

/-- A failure on a text is unreported exactly where it has a number that is too long, or holds a
manifest with an entry that cannot be used. -/
lemma unreported_ofText_iff {name text : String} :
    (∃ x, ofText name root text = .error x ∧ x.message? = none) ↔
      Json.read text = .error .numberTooLong ∨
      ∃ j, Json.read text = .ok j ∧ ∃ x, ofJson name root j = .error x ∧ x.message? = none := by
  unfold ofText
  cases Json.read text with
  | ok j => simp
  | error y => cases y <;> simp [BundleError.message?]

/-- Bytes that are no text cannot be read as one. -/
lemma readText_eq_encoding_iff :
    d.readText path = .error .encoding ↔
      ∃ bytes, d.readBytes path = .ok bytes ∧ Text.readUtf8 bytes = none := by
  unfold Disk.readText
  cases d.readBytes path with
  | error e => simp
  | ok bytes => cases hbytes : Text.readUtf8 bytes <;> simp [hbytes]

/-- What the disk refuses cannot be read as a text. -/
lemma readText_eq_disk_iff {x : DiskError} :
    d.readText path = .error (.disk x) ↔ d.readBytes path = .error x := by
  unfold Disk.readText
  cases d.readBytes path with
  | error e => simp
  | ok bytes => cases hbytes : Text.readUtf8 bytes <;> simp [hbytes]

variable (root) in
/-- A failure is unreported exactly where the description has a fault. -/
lemma unreported_load_iff :
    (∃ x, load d path root = .error x ∧ x.message? = none) ↔ HasFault d path := by
  constructor
  · rintro ⟨x, hx, hmessage⟩
    unfold load at hx
    cases hread : d.readText path with
    | ok text =>
      rw [hread] at hx
      rcases unreported_ofText_iff.1 ⟨x, hx, hmessage⟩ with hnumber | ⟨j, hj, hunreported⟩
      · exact .number text hread hnumber
      · obtain ⟨members, rfl, hlist, hmanifest, key, e, hmem, hentry⟩ :=
          unreported_ofJson_iff.1 hunreported
        exact .entry text members key e hread hj hlist hmanifest hmem hentry
    | error y =>
      rw [hread] at hx
      cases y with
      | encoding =>
        obtain ⟨bytes, h, hbytes⟩ := readText_eq_encoding_iff.1 hread
        exact .encoding bytes h hbytes
      | disk y =>
        cases y with
        | nulInPath => exact .path (readText_eq_disk_iff.1 hread)
        | _ =>
          cases hx
          cases hmessage
  · intro hfault
    unfold load
    cases hfault with
    | path h =>
      rw [readText_eq_disk_iff.2 h]
      exact ⟨.badPath, rfl, rfl⟩
    | encoding bytes h hbytes =>
      rw [readText_eq_encoding_iff.2 ⟨bytes, h, hbytes⟩]
      exact ⟨.encoding, rfl, rfl⟩
    | number text h htext =>
      rw [h]
      exact unreported_ofText_iff.2 (Or.inl htext)
    | entry text members key e h htext hlist hmanifest hmem hentry =>
      rw [h]
      refine unreported_ofText_iff.2 (Or.inr ⟨.object members, htext, ?_⟩)
      exact unreported_ofJson_iff.2 ⟨members, rfl, hlist, hmanifest, key, e, hmem, hentry⟩

/-- **A description is loaded or reported unless it has one of four faults.** Whatever the path and
whatever the bytes of the file: loading answers with chunks, or fails in a way that is reported,
exactly if the path has no null character, the bytes are a text, no number in it is too long, and,
if it is a manifest, each entry can be used. -/
theorem load_isHandled_iff (d : Disk) (path root : Path) :
    IsHandled (load d path root) ↔ ¬ HasFault d path := by
  rw [← unreported_load_iff root, IsHandled]
  cases load d path root with
  | ok cs => simp
  | error x => simp [Option.ne_none_iff_exists']

/-- The description of a bundle. -/
def descriptionPath : Path := Path.ofString "/app/manifest.json"

/-- The disk with this description and nothing else. -/
def descriptionDisk (description : List UInt8) : Disk where
  nodes := Table.ofList [(["app"], .directory), (["app", "manifest.json"], .file description)]
  workingDirectory := ["app"]

/-- An entry of a manifest with null for its style sheets has a fault, and so have bytes that are no
text. A list with null for a chunk has none: this is reported. -/
theorem load_isHandled_iff_of_null :
    ¬ IsHandled (load (descriptionDisk
      (Text.writeUtf8 "\x7b\"a\": \x7b\"file\": \"a.js\", \"css\": null\x7d\x7d".toList))
      descriptionPath descriptionPath) ∧
    ¬ IsHandled (load (descriptionDisk [0xff]) descriptionPath descriptionPath) ∧
    ¬ HasFault (descriptionDisk (Text.writeUtf8 "\x7b\"chunks\": [null]\x7d".toList))
      descriptionPath := by
  refine ⟨fun h => (load_isHandled_iff _ _ _).1 h ?_, fun h => (load_isHandled_iff _ _ _).1 h ?_,
    (load_isHandled_iff _ _ descriptionPath).1 ?_⟩
  · exact .entry _ _ "a" _ rfl rfl nofun (by decide +kernel) List.mem_cons_self (by decide +kernel)
  · exact .encoding [0xff] rfl (by decide +kernel)
  · exact Or.inr ⟨.invalidChunk _, _, rfl, rfl⟩

end Bundle

end RouteAssets
