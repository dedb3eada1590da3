import RouteAssets.Proofs.Imports.Precheck
import RouteAssets.Proofs.Script.Erasure

/-!
# Imports that stand in types

A type may name a module by an `import` of its own (`typeof import('./y')`), which is written as a
call but loads nothing: it goes when the types are erased. Every literal specifier of a script is
listed with the mark whether its call stands in a type (`importPlaces`).

* The walk **reports** all of them (`dynamicSpecifiers_eq_map`), and of an erased script those
  outside types (`dynamicSpecifiers_erase`).
* The **first** one, which is the component of a route, is the first of the list, and of an erased
  script the first one outside types (`firstDynamicSpecifier?_eq`, `firstDynamicSpecifier?_erase`).

So types change what is reported exactly when an `import` with a literal stands in one, and they
change the first one exactly when that stands in a type and no call of the same specifier is the
first one outside (`erase_unchanged_iff`).
-/

namespace RouteAssets.Imports

open RouteAssets.Script

/-- The literal specifiers of the `import` calls in source order, marked if they stand in a type. -/
def importPlaces (root : Tree) : List (Bool × String) :=
  (root.located false).filterMap fun e => e.2.importSpecifier?.map (e.1, ·)

section Places

variable (root : Tree) (module : ModuleId) (globs : Bool)

/-- Without their marks these are the specifiers in all subtrees. -/
lemma map_snd_importPlaces :
    (importPlaces root).map Prod.snd = root.preorder.filterMap Tree.importSpecifier? := by
  rw [importPlaces, List.map_filterMap, ← Tree.map_snd_located false root, List.filterMap_map]
  congr 1
  funext e
  simp [Option.map_map, Function.comp_def]

/-- Those outside types are the specifiers in the subtrees of the erased script. -/
lemma map_snd_filter_importPlaces :
    ((importPlaces root).filter fun e => !e.1).map Prod.snd =
      root.erase.preorder.filterMap Tree.importSpecifier? := by
  rw [Tree.filterMap_preorder_erase Tree.importSpecifier?_erase, importPlaces,
    List.filter_filterMap, List.map_filterMap]
  congr 1
  funext e
  obtain ⟨inType, t⟩ := e
  cases inType <;> cases h : t.importSpecifier? <;> simp [Tree.foundOutside, h]

/-- All specifiers are reported, those in types as well. -/
lemma dynamicSpecifiers_eq_map :
    (dynamicSpecifiers root module globs).1 = (importPlaces root).map Prod.snd := by
  rw [dynamicSpecifiers_eq, map_snd_importPlaces]

/-- Of an erased script those outside types are reported. -/
lemma dynamicSpecifiers_erase :
    (dynamicSpecifiers root.erase module globs).1 =
      ((importPlaces root).filter fun e => !e.1).map Prod.snd := by
  rw [dynamicSpecifiers_eq, map_snd_filter_importPlaces]

/-- The first specifier of all, those in types as well. -/
lemma firstDynamicSpecifier?_eq :
    firstDynamicSpecifier? root = ((importPlaces root).map Prod.snd).head? := by
  rw [firstDynamicSpecifier?, Tree.walk_eq_preorder, map_snd_importPlaces, List.head?_filterMap]

/-- Of an erased script the first specifier outside types. -/
lemma firstDynamicSpecifier?_erase :
    firstDynamicSpecifier? root.erase =
      (((importPlaces root).filter fun e => !e.1).map Prod.snd).head? := by
  rw [firstDynamicSpecifier?, Tree.walk_eq_preorder, map_snd_filter_importPlaces,
    List.head?_filterMap]

end Places

/-- **Erasing the types of a script leaves its dynamic imports alone exactly when no literal
`import` stands in a type.** For every syntax tree, what is reported is the specifiers of all
`import` calls, and without the types those of the calls outside types. So a specifier that occurs
in types only is reported all the same. The first specifier in a tree, which is taken as the
component of a route, stays what it is exactly unless it stands in a type and the first one outside
types is another. -/
theorem erase_unchanged_iff (root : Tree) (module : ModuleId) (globs : Bool) :
    (∀ s, s ∈ (dynamicSpecifiers root module globs).1 ↔
      (true, s) ∈ importPlaces root ∨ (false, s) ∈ importPlaces root) ∧
    (∀ s, s ∈ (dynamicSpecifiers root.erase module globs).1 ↔ (false, s) ∈ importPlaces root) ∧
    ((dynamicSpecifiers root.erase module globs).1 = (dynamicSpecifiers root module globs).1 ↔
      ∀ e ∈ importPlaces root, e.1 = false) ∧
    (firstDynamicSpecifier? root.erase = firstDynamicSpecifier? root ↔
      ∀ s rest, importPlaces root = (true, s) :: rest →
        rest.find? (fun e => !e.1) = some (false, s)) := by
  rw [dynamicSpecifiers_erase, dynamicSpecifiers_eq_map, firstDynamicSpecifier?_erase,
    firstDynamicSpecifier?_eq]
  refine ⟨fun s => ?_, fun s => ?_, ⟨fun h => ?_, fun h => ?_⟩, ?_⟩
  · simp [or_comm]
  · simp
  · -- nothing is left out where nothing is missing
    have hlength := congrArg List.length h
    rw [List.length_map, List.length_map, List.length_filter_eq_length_iff] at hlength
    simpa using hlength
  · rw [List.filter_eq_self.2 (by simpa using h)]
  · rw [List.head?_map, List.head?_map, List.head?_filter]
    cases hplaces : importPlaces root with
    | nil => simp
    | cons e rest =>
      obtain ⟨inType, s⟩ := e
      cases inType with
      | false => simp
      | true =>
        have hfirst : rest.find? (fun e => !e.1) = some (false, s) ↔
            (rest.find? fun e => !e.1).map Prod.snd = some s := by
          cases hfind : rest.find? fun e => !e.1 with
          | none => simp
          | some e =>
            have he : e.1 = false := by simpa using List.find?_some hfind
            simp [Prod.ext_iff, he]
        rw [List.find?_cons_of_neg (by simp), List.head?_cons, Option.map_some, ← hfirst]
        refine ⟨fun h s' rest' heq => ?_, fun h => h s rest rfl⟩
        cases heq
        exact h

-- the only specifier of this script stands in a type
example : (match (Source.read .typescript "let x: typeof import('./y');").root? with
    | some root =>
      decide ((dynamicSpecifiers root "/a.ts" false).1 = ["./y"]) &&
        decide ((dynamicSpecifiers root.erase "/a.ts" false).1 = []) &&
        decide (importPlaces root = [(true, "./y")])
    | none => false) = true := by decide +kernel

end RouteAssets.Imports
