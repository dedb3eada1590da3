import RouteAssets.Text.Search

/-!
# Module identifiers

A module is named by the text of its absolute path. A query after a question mark names a variant of
the same module and is dropped before names are compared.
-/

namespace RouteAssets

open RouteAssets.Text

/-- The name of a module. -/
abbrev ModuleId := String

namespace ModuleId

/-- The identifier without its query. -/
def withoutQuery (m : ModuleId) : ModuleId := upTo '?' m

/-- The extensions of scripts and components that are compiled. -/
def compiledExtensions : List String := [".vue", ".ts", ".tsx", ".js", ".jsx"]

/-- Does a text end with one of the compiled extensions, or with one and a newline? -/
def hasCompiledExtension (s : String) : Bool :=
  compiledExtensions.any fun e => endsWith s e || endsWith s (e ++ "\n")

/-- Is the module one to compile? Third-party packages are left out, and a query is ignored. -/
def isCompiled (m : ModuleId) : Bool :=
  !contains m "node_modules" && hasCompiledExtension m.withoutQuery

/-- Is it the name of a test or of a declaration file? -/
def isTestName (name : String) : Bool :=
  contains name ".spec." || contains name ".test." || endsWith name ".d.ts"

/-- The package that a bare specifier names: its first part, or its first two under a scope. -/
def packageName (specifier : String) : String :=
  match pieces '/' specifier with
  | scope :: name :: _ => if startsWith specifier "@" then scope ++ "/" ++ name else scope
  | parts => joinWith "/" parts

end ModuleId

end RouteAssets
