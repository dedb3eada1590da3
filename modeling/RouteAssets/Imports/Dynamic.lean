import RouteAssets.Imports.Answer
import RouteAssets.Notice
import RouteAssets.Script.Query
import RouteAssets.Script.Source

/-!
# Dynamic imports

A module imports dynamically what the literal arguments of its `import` calls name, wherever in the
module the calls stand. Calls with a computed argument and calls of the glob methods of
`import.meta` name nothing; they are only reported. A textual test on the source comes first, so
that most modules need no walk.
-/

namespace RouteAssets.Imports

open RouteAssets.Script RouteAssets.Text

/-! ## What a script asks for -/

/-- Does the text hold what a dynamic import usually starts with? -/
def hasDynamicSyntax (source : String) : Bool :=
  contains source "import(" || contains source "import.meta.glob"

/-- What one node contributes: a specifier, a notice, or nothing. -/
def visitImport (module : ModuleId) (globs : Bool) (t : Tree) : List String × List Notice :=
  if t.isImportCall then
    match t.importSpecifier? with
    | some s => ([s], [])
    | none => ([], [.computedImport module t.line])
  else if globs then
    match t.globMethod? with
    | some method => ([], [.globNotExpanded method module])
    | none => ([], [])
  else ([], [])

/-- The literal specifiers of the `import` calls under a tree, in source order, and what is to be
said about the others. -/
def dynamicSpecifiers (root : Tree) (module : ModuleId) (globs : Bool) :
    List String × List Notice :=
  let visits := root.walk.map (visitImport module globs)
  (visits.flatMap Prod.fst, visits.flatMap Prod.snd)

/-- The specifier of the first `import` call with a literal argument under a tree. -/
def firstDynamicSpecifier? (root : Tree) : Option String :=
  root.walk.findSome? Tree.importSpecifier?

/-! ## What comes of the answers -/

/-- The modules that some answers name. -/
def dynamicTargets (answers : List Answer) : List ModuleId :=
  distinct (answers.filterMap Answer.module?)

/-- What is to be said about an answer while the specifier is being resolved. -/
def failureNotices (importer : ModuleId) (specifier : String) : Answer → List Notice
  | .failed reason => [.dynamicImportFailed specifier importer reason]
  | _ => []

/-- What is to be said about a specifier that names no module. -/
def unresolvedNotices (importer : ModuleId) (specifier : String) (answer : Answer) : List Notice :=
  match answer.module? with
  | some _ => []
  | none => [.dynamicImportUnresolved specifier importer]

/-- The notices about the answers to some specifiers: failures first, as they arise while resolving,
then what stayed without a module. -/
def answerNotices (importer : ModuleId) (specifiers : List String) (answers : List Answer) :
    List Notice :=
  let pairs := specifiers.zip answers
  (pairs.flatMap fun (s, a) => failureNotices importer s a) ++
    pairs.flatMap fun (s, a) => unresolvedNotices importer s a

/-- The modules that a script imports dynamically. Every distinct specifier is asked for once, in
the order of first occurrence, on behalf of the module without its query. -/
def collectDynamic {σ : Type} (resolve : Resolver σ) (source : Source) (module : ModuleId)
    (globs : Bool) : StateM σ (List ModuleId × List Notice) :=
  match source.root? with
  | none => pure ([], [])
  | some root =>
    if hasDynamicSyntax source.text then do
      let importer := module.withoutQuery
      let (found, notices) := dynamicSpecifiers root importer globs
      let specifiers := distinct found
      let answers ← askAll resolve importer specifiers
      return (dynamicTargets answers, notices ++ answerNotices importer specifiers answers)
    else pure ([], [])

end RouteAssets.Imports
