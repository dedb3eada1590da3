import RouteAssets.Json.Validation
import RouteAssets.Module.Id

/-!
# Chunks

A chunk is a file that a bundler emits, with the modules in it, the style sheets it brings along and
the chunks it imports. What a style sheet is named by is a parameter: a checked description names
style sheets by texts, a build manifest by any value.
-/

namespace RouteAssets

open RouteAssets.Json

/-- The name of an emitted file, relative to the output directory. -/
abbrev FileName := String

/-- An emitted chunk. -/
structure Chunk (α : Type) where
  file : FileName
  modules : List ModuleId
  styles : List α
  imports : List FileName
  dynamicImports : List FileName
  isEntry : Bool
  isDynamicEntry : Bool
  deriving DecidableEq, Repr

namespace Chunk

variable {α β : Type}

/-- A chunk about which nothing is known but its file. -/
def ofFile (file : FileName) : Chunk α :=
  { file, modules := [], styles := [], imports := [], dynamicImports := [], isEntry := false,
    isDynamicEntry := false }

/-- Renames the style sheets. -/
def mapStyles (f : α → β) (c : Chunk α) : Chunk β := { c with styles := c.styles.map f }

/-- The chunk that an object describes, or all that is wrong with the description. -/
def ofJson : Json → Checked (Chunk String)
  | .object ms =>
    let file := required checkText ms ["fileName", "file_name"]
    let modules := optional checkTexts [] ms ["modules"]
    let styles := optional checkTexts [] ms ["css"]
    let imports := optional checkTexts [] ms ["imports"]
    let dynamicImports := optional checkTexts [] ms ["dynamicImports", "dynamic_imports"]
    let isEntry := optional checkTruth false ms ["isEntry", "is_entry"]
    let isDynamicEntry := optional checkTruth false ms ["isDynamicEntry", "is_dynamic_entry"]
    match file, modules, styles, imports, dynamicImports, isEntry, isDynamicEntry with
    | .ok file, .ok modules, .ok styles, .ok imports, .ok dynamicImports, .ok isEntry,
        .ok isDynamicEntry =>
      .ok { file, modules, styles, imports, dynamicImports, isEntry, isDynamicEntry }
    | _, _, _, _, _, _, _ =>
      .error (violations file ++ violations modules ++ violations styles ++ violations imports ++
        violations dynamicImports ++ violations isEntry ++ violations isDynamicEntry)
  | _ => fault .notObject

end Chunk

end RouteAssets
