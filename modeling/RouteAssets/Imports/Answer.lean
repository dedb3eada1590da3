import RouteAssets.Module.Id

/-!
# Asking for modules

Collecting imports is split in two: what to ask a resolver for, which depends on the script alone,
and what to make of its answers. Between the two stands a resolver, which may keep a state of its
own, answers in the order in which it is asked, and may fail for one specifier without harm to the
others.
-/

namespace RouteAssets

/-- What a resolver says to one specifier: a module, none, or the reason of a failure. An empty
module name counts as none. -/
inductive Answer where
  | found (module : ModuleId)
  | unknown
  | failed (reason : String)
  deriving DecidableEq, Repr

namespace Answer

/-- The module found, without its query. The name that was answered is not empty, the name without
its query may be. -/
def module? : Answer → Option ModuleId
  | found m => if m == "" then none else some m.withoutQuery
  | _ => none

end Answer

/-- A resolver with a state: the state before, the specifier and the importing module. -/
abbrev Resolver (σ : Type) := String → ModuleId → StateM σ Answer

/-- The answers to a list of specifiers, asked in order on behalf of one importer. -/
def askAll {σ : Type} (resolve : Resolver σ) (importer : ModuleId) (specifiers : List String) :
    StateM σ (List Answer) :=
  specifiers.mapM fun s => resolve s importer

end RouteAssets
