import RouteAssets.Config.Setting
import RouteAssets.Module.Lookup
import RouteAssets.Usage

/-!
# Options of a build

What a configuration says about a build of a project. A setting of the wrong kind is a misfit. Where
the setting shapes a path or a list that every build needs, the misfit is noticed at once, and the
first one in the order below is reported; a setting that only some steps read keeps its misfit until
one of them reads it.
-/

namespace RouteAssets

/-- What is wrong with a setting. -/
inductive Misfit where
  | notMapping
  | wrongKind
  deriving DecidableEq, Repr

/-- The value of a setting, or what is wrong with it. -/
abbrev Field (α : Type) := Except Misfit α

namespace Setting

/-- The entries of a mapping. -/
def entries (s : Setting) : Field Entries :=
  match s with
  | .mapping es => .ok es
  | _ => .error .notMapping

/-- A text. -/
def asText (s : Setting) : Field String :=
  match s with
  | .scalar (.text t) => .ok t
  | _ => .error .wrongKind

/-- What a setting holds: the items of a list, the characters of a text, or the names in a
mapping. -/
def items (s : Setting) : Field (List Setting) :=
  match s with
  | .list xs => .ok xs
  | .scalar (.text t) => .ok (t.toList.map fun c => .text (String.ofList [c]))
  | .mapping es => .ok (es.map fun e => .scalar e.1)
  | _ => .error .wrongKind

/-- The items of a setting, each of which is a text. -/
def asTexts (s : Setting) : Field (List String) := do (← s.items).mapM asText

end Setting

namespace Config

/-- A section of a configuration. -/
def section? (c : Config) (name : String) : Field Setting.Entries :=
  match Setting.lookup (.text name) c with
  | some s => s.entries
  | none => .ok []

/-- A setting in a section, or the one that stands for it. -/
def valueOr (es : Setting.Entries) (name : String) (s : Setting) : Setting :=
  (Setting.lookup (.text name) es).getD s

/-- A setting that may be missing or empty. -/
def value? (es : Setting.Entries) (name : String) : Option Setting :=
  match Setting.lookup (.text name) es with
  | some s => if s.isTruthy then some s else none
  | none => none

end Config

/-- The options of a build. -/
structure Options where
  root : Path
  isVerbose : Bool
  lookup : Field Lookup.Rules
  excluded : String
  routerDirectory : Path
  sourceDirectory : Path
  registrationFiles : List (Field String)
  virtualModule : Field String
  generatedModule : Option Path
  usageFile : Field (Option String)
  reportsGlobs : Bool
  vocabulary : Field Usage.Vocabulary
  addsImportedChunks : Bool
  chunkPatterns : Field (List String)

/-- Why a configuration gives no options. -/
inductive OptionsError where
  | notDirectory (path : String)
  | disk (e : DiskError)
  | misfit (m : Misfit)
  deriving DecidableEq, Repr

/-- The text of an error that is reported. -/
def OptionsError.message? : OptionsError → Option String
  | notDirectory path => some s!"Project root must be a valid directory: {path}"
  | _ => none

namespace Options

open Config

/-- The directories that aliases stand for, with the names of the aliases. -/
def aliasTargets (root : Path) (es : Setting.Entries) : Field (List (Scalar × Path)) :=
  es.mapM fun (name, target) => do return (name, root.under (← target.asText))

/-- The aliases, once all their names are texts. -/
def aliasesOf (targets : List (Scalar × Path)) : Field (List Lookup.Alias) :=
  targets.mapM fun (name, target) => do
    return { key := ← (Setting.scalar name).asText, target }

/-- The extensions to try: what the setting holds, or the standard ones. -/
def extensionItems (es : Setting.Entries) : Field (List Setting) :=
  match Setting.lookup (.text "extensions") es with
  | none => .ok (Lookup.standardExtensions.map .text)
  | some s => if s matches .scalar .null then .ok (Lookup.standardExtensions.map .text) else s.items

/-- How specifiers are looked up. -/
def lookupRules (root : Path) (es : Setting.Entries) : Field (Field Lookup.Rules) := do
  let excluded := valueOr es "excluded_namespace" (.text "node_modules")
  let targets ← match value? es "aliases" with
    | none => pure []
    | some s => aliasTargets root (← s.entries)
  let extensions ← extensionItems es
  return do
    return { root, aliases := ← aliasesOf targets, extensions := ← extensions.mapM Setting.asText
             packages := excluded.asText.toOption }

/-- A path below the project root. -/
def pathBelow (root : Path) (s : Setting) : Field Path := do return root.joinText (← s.asText)

/-- The functions that declare dependencies and the functions that take component options. -/
def vocabularyOf (es : Setting.Entries) : Field Usage.Vocabulary := do
  let standard := Usage.Vocabulary.standard
  let declaring := valueOr es "define_deps_functions" (.texts standard.declaring)
  let component := valueOr es "define_component_functions" (.texts standard.component)
  return { declaring := ← declaring.asTexts, component := ← component.asTexts }

/-- The options that a configuration states for a project root in a working directory. -/
def ofConfig (working root : Path) (c : Config) : Field Options := do
  let general ← section? c "general"
  let resolve ← section? c "resolve"
  let lookup ← lookupRules root resolve
  let routes ← section? c "route_deps"
  let routerDirectory ← pathBelow root (valueOr routes "router_dir" (.text "src/ui/router"))
  let sourceDirectory ← pathBelow root (valueOr routes "source_dir" (.text "src"))
  let registrationFiles ← match value? routes "ioc_map_files" with
    | none => pure []
    | some s => s.items
  let output ← section? c "output"
  let generatedModule ← match value? output "generated_module_path" with
    | none => pure none
    | some s => do pure (some (Path.resolve working (← pathBelow root s)))
  return {
    root
    isVerbose := (value? general "verbose").isSome
    lookup
    excluded := ((valueOr resolve "excluded_namespace" (.text "node_modules")).asText.toOption).getD ""
    routerDirectory, sourceDirectory
    registrationFiles := registrationFiles.map Setting.asText
    virtualModule := (valueOr routes "virtual_module_id" (.text "virtual:route-deps-map")).asText
    generatedModule
    usageFile := match value? routes "ioc_deps_file" with
      | none => .ok none
      | some s => s.asText.map some
    reportsGlobs := (valueOr routes "enable_glob_imports" (.truth true)).isTruthy
    vocabulary := vocabularyOf routes
    addsImportedChunks := (value? routes "include_static_chunks").isSome
    chunkPatterns := match value? routes "include_chunk_patterns" with
      | none => .ok []
      | some s => s.asTexts }

/-- The options of a build of the project at a path. -/
def load (d : Disk) (root : Path) (c : Config) : Except OptionsError Options := do
  let root := d.resolve root
  unless ← (d.isDirectory root).mapError .disk do throw (.notDirectory root.toString)
  (ofConfig d.workingPath root c).mapError .misfit

end Options

end RouteAssets
