import RouteAssets.Chunk.Basic
import RouteAssets.Path
import RouteAssets.Table

/-!
# Build manifests

A manifest is an object with one entry for each source module and for each shared chunk. An entry
names the file it is emitted to, its style sheets, and the keys of the entries it imports. Entries
with one file are one chunk; entries without a file, and those that emit style sheets only, are
none. A key that starts with an underscore stands for no module unless the entry names one.

The entries are not checked. What is not a text where a text is needed, and what cannot be gone
through where a list is needed, makes the manifest unusable.
-/

namespace RouteAssets.Chunk

open RouteAssets.Text

/-- Why a manifest is unusable. -/
inductive ManifestError where
  | notText
  | notIterable
  deriving DecidableEq, Repr

/-- The identifier of the module that a description names: relative paths start at the project
root. -/
def describedModule (root : Path) (name : String) : ModuleId :=
  (root.under (ModuleId.withoutQuery name)).toString

/-- The members of an entry; whatever is not an object is no entry. -/
abbrev Entry := List (String × Json)

/-- The entries of a manifest with their keys. -/
def entriesOf (manifest : List (String × Json)) : List (String × Entry) :=
  manifest.filterMap fun (key, value) =>
    match value with
    | .object members => some (key, members)
    | _ => none

/-- A member of an entry; one that is missing counts as null. -/
def valueOf (e : Entry) (name : String) : Json := (Table.lookup name e).getD .null

/-- What a list-valued member holds: the items of an array, the characters of a text, or the names
of an object. A missing member is an empty list. -/
def itemsOf (e : Entry) (name : String) : Except ManifestError (List Json) :=
  match Table.lookup name e with
  | none => .ok []
  | some (.array items) => .ok items
  | some (.string s) => .ok (s.toList.map fun c => .string (String.ofList [c]))
  | some (.object members) => .ok (members.map fun m => .string m.1)
  | some _ => .error .notIterable

/-- The file that each key is emitted to. -/
def fileByKey (entries : List (String × Entry)) : Table String Json :=
  Table.ofList (entries.map fun (key, e) => (key, valueOf e "file"))

/-- The files of the entries that some keys name, without those that have no file. -/
def filesByKeys (files : Table String Json) : List Json → Except ManifestError (List FileName)
  | [] => .ok []
  | .string key :: keys => do
    let rest ← filesByKeys files keys
    match files.get? key with
    | some (.string "") => return rest
    | some (.string file) => return file :: rest
    | _ => return rest
  | key :: keys => if key.isScalar then filesByKeys files keys else .error .notIterable

/-- Appends a style sheet unless an equal one is there. -/
def addStyle (styles : List Json) (style : Json) : List Json :=
  if styles.any style.same then styles else styles ++ [style]

/-- The module of an entry, if it stands for one. -/
def moduleOf (root : Path) (key : String) (e : Entry) : Except ManifestError (List ModuleId) :=
  let source := valueOf e "src"
  if source.isTruthy then
    match source with
    | .string s => .ok [describedModule root s]
    | _ => .error .notText
  else if startsWith key "_" then .ok []
  else .ok [describedModule root key]

/-- The file of an entry, when it is one to load as a script. -/
def scriptFile? (e : Entry) : Except ManifestError (Option FileName) :=
  let file := valueOf e "file"
  if file.isTruthy then
    match file with
    | .string f => .ok (if endsWith f ".css" then none else some f)
    | _ => .error .notText
  else .ok none

/-- Adds an entry to the chunk of its file. -/
def addEntry (root : Path) (files : Table String Json) (key : String) (e : Entry) (c : Chunk Json) :
    Except ManifestError (Chunk Json) := do
  let modules ← moduleOf root key e
  let styles ← itemsOf e "css"
  let imports ← filesByKeys files (← itemsOf e "imports")
  let dynamicImports ← filesByKeys files (← itemsOf e "dynamicImports")
  return { c with
    modules := c.modules ++ modules
    styles := styles.foldl addStyle c.styles
    imports := addAll c.imports imports
    dynamicImports := addAll c.dynamicImports dynamicImports
    isEntry := c.isEntry || (valueOf e "isEntry").isTruthy
    isDynamicEntry := c.isDynamicEntry || (valueOf e "isDynamicEntry").isTruthy }

/-- Adds an entry to the chunks. -/
def addToChunks (root : Path) (files : Table String Json) (chunks : Table FileName (Chunk Json))
    (entry : String × Entry) : Except ManifestError (Table FileName (Chunk Json)) := do
  match ← scriptFile? entry.2 with
  | none => return chunks
  | some file =>
    let c ← addEntry root files entry.1 entry.2 (chunks.getD file (ofFile file))
    return chunks.insert file c

/-- The chunks that a manifest describes, in the order of their first entries. -/
def ofManifest (root : Path) (manifest : List (String × Json)) :
    Except ManifestError (List (Chunk Json)) := do
  let entries := entriesOf manifest
  let chunks ← entries.foldlM (addToChunks root (fileByKey entries)) Table.empty
  return chunks.values

end RouteAssets.Chunk
