import RouteAssets.Proofs.Imports.Precheck
import RouteAssets.Proofs.Script.Position

/-!
# What a script loads, and what a part of it loads

Dynamic imports are looked for twice: a module loads what all its `import` calls name, and a route
loads what the first such call under its component names. Both searches walk the syntax tree with a
stack of pending siblings.

* The **list** of a tree follows its positions (`dynamicSpecifiers_eq_positions`): the literal
  specifiers in order of the calls, an outer call in front of those inside it.
* The **first** specifier under a tree is the first of its list, and there is none exactly if the list
  is empty (`firstDynamicSpecifier?_eq_head?`).

So whatever part of a script is the component of a route, both agree on what it loads
(`searches_follow_walk`).
-/

namespace RouteAssets.Imports

open RouteAssets.Script

variable (root : Tree) (module : ModuleId) (globs : Bool)

/-- The literal specifiers are listed in the order of the positions of their calls. -/
lemma dynamicSpecifiers_eq_positions :
    (dynamicSpecifiers root module globs).1 =
      root.positions.filterMap fun p => (root.at? p).bind Tree.importSpecifier? := by
  rw [dynamicSpecifiers_eq, ← Tree.walk_eq_preorder, Tree.filterMap_walk]

/-- The first literal specifier under a tree is the first that is listed. -/
lemma firstDynamicSpecifier?_eq_head? :
    firstDynamicSpecifier? root = (dynamicSpecifiers root module globs).1.head? := by
  rw [dynamicSpecifiers_eq, firstDynamicSpecifier?, Tree.walk_eq_preorder, List.head?_filterMap]

/-- **Every search follows the walk.** For every syntax tree the walk with a stack is the recursive
walk: it visits what is at the positions of the tree, each position once, a tree before what is in it
and siblings from left to right. What is searched for is found at the first position that passes the
test. The literal specifiers of the `import` calls are listed in the order of the positions, and the
specifier that a route takes from any part of a script is the first of the list of this part, if there
is one. -/
theorem searches_follow_walk :
    root.walk = root.preorder ∧
      ∃ ps, root.Enumerates ps ∧ root.walk.map some = ps.map root.at? ∧
        (∀ test t, root.find? test = some t ↔ Tree.IsFirstWith test root t) ∧
        (∀ test, root.find? test = none ↔ ∀ p t, root.at? p = some t → test t = false) ∧
        (dynamicSpecifiers root module globs).1 =
          ps.filterMap (fun p => (root.at? p).bind Tree.importSpecifier?) ∧
        ∀ p t, root.at? p = some t →
          firstDynamicSpecifier? t = (dynamicSpecifiers t module globs).1.head? := by
  refine ⟨root.walk_eq_preorder, root.positions, root.enumerates_positions, root.map_some_walk, ?_⟩
  refine ⟨fun test t => Tree.find?_eq_some_iff, fun test => Tree.find?_eq_none_iff, ?_⟩
  exact ⟨dynamicSpecifiers_eq_positions root module globs,
    fun p t _ => firstDynamicSpecifier?_eq_head? t module globs⟩

-- an outer call comes before the call in its argument, which is no literal
example : (match (Source.read .javascript "f(import('./a'), import(g(import('./b'))))").root? with
    | some root => (dynamicSpecifiers root "/a.js" false).1 == ["./a", "./b"] &&
        firstDynamicSpecifier? root == some "./a"
    | none => false) = true := by decide +kernel

end RouteAssets.Imports
