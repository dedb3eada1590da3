import RouteAssets.Proofs.Imports.Asking
import RouteAssets.Proofs.Script.Grammar
import RouteAssets.Proofs.Text.Occurrence

/-!
# The textual test before the walk

The test on the source text is meant to save the walk over a tree without dynamic imports.

* **What the walk finds** (`dynamicSpecifiers_eq`): the literal specifiers of the `import` calls
  anywhere in the tree.
* **Compact calls** (`hasDynamicSyntax_of_compact`): nothing is lost while reading, so a call whose
  parenthesis follows the word `import` at once shows in the text, and the test lets it pass.
* **Exactness** (`precheck_iff`): the test leaves the targets alone exactly for scripts whose text
  passes it and for those without a literal specifier. A call with a blank in it is lost
  (`precheck_misses_spaced_call`).
-/

namespace RouteAssets.Imports

open RouteAssets.Script RouteAssets.Text

/-! ## Collecting without the test -/

/-- The modules that a script imports dynamically, found by walking its tree whatever its text
is. -/
def walkDynamic {σ : Type} (resolve : Resolver σ) (root : Tree) (module : ModuleId) (globs : Bool) :
    StateM σ (List ModuleId) := do
  let importer := module.withoutQuery
  let specifiers := distinct (dynamicSpecifiers root importer globs).1
  return dynamicTargets (← askAll resolve importer specifiers)

/-- The walk finds the literal specifiers of the `import` calls, in the order of the calls. -/
lemma dynamicSpecifiers_eq (root : Tree) (module : ModuleId) (globs : Bool) :
    (dynamicSpecifiers root module globs).1 = root.preorder.filterMap Tree.importSpecifier? := by
  have hvisit : ∀ t : Tree, (visitImport module globs t).1 = t.importSpecifier?.toList := by
    intro t
    unfold visitImport
    by_cases ht : t.isImportCall = true
    · rw [if_pos ht]
      cases t.importSpecifier? <;> rfl
    · have hnone : t.importSpecifier? = none := by rw [Tree.importSpecifier?, if_neg ht]
      rw [if_neg ht, hnone]
      repeat' split
      all_goals rfl
  simp only [dynamicSpecifiers, Tree.walk_eq_preorder, List.flatMap_map, hvisit,
    List.filterMap_eq_flatMap_toList]

/-- A specifier is found where an `import` call has it. -/
lemma mem_dynamicSpecifiers_iff {root : Tree} {module : ModuleId} {globs : Bool} {s : String} :
    s ∈ (dynamicSpecifiers root module globs).1 ↔
      ∃ t ∈ root.preorder, t.importSpecifier? = some s := by
  rw [dynamicSpecifiers_eq, List.mem_filterMap]

/-- With a resolver that follows fixed answers the walk comes to the modules that these name. -/
lemma settles_walkDynamic {σ : Type} {good : σ → Prop} {resolve : Resolver σ}
    {answer : String → ModuleId → Answer} (h : ∀ s m, Settles good (resolve s m) (answer s m))
    (root : Tree) (module : ModuleId) (globs : Bool) :
    Settles good (walkDynamic resolve root module globs)
      (dynamicTargets ((distinct (dynamicSpecifiers root module.withoutQuery globs).1).map
        fun s => answer s module.withoutQuery)) :=
  (settles_askAll h _ _).bind (settles_pure _)

/-- With a text that passes, the collection is the walk. -/
lemma collectDynamic_of_hasDynamicSyntax {σ : Type} (resolve : Resolver σ) {source : Source}
    {root : Tree} (hroot : source.root? = some root) (htext : hasDynamicSyntax source.text = true)
    (module : ModuleId) (globs : Bool) (s : σ) :
    ((collectDynamic resolve source module globs).run s).1.1 =
      ((walkDynamic resolve root module globs).run s).1 := by
  unfold collectDynamic
  rw [hroot]
  simp only [htext, if_true]
  rfl

/-- With a text that does not pass, nothing is collected. -/
lemma collectDynamic_of_not_hasDynamicSyntax {σ : Type} (resolve : Resolver σ) {source : Source}
    (htext : hasDynamicSyntax source.text = false) (module : ModuleId) (globs : Bool) (s : σ) :
    ((collectDynamic resolve source module globs).run s).1.1 = [] := by
  unfold collectDynamic
  cases source.root? with
  | none => rfl
  | some root =>
    simp only [htext, Bool.false_eq_true, if_false]
    rfl

/-- Without a literal specifier the walk finds no module. -/
lemma walkDynamic_of_no_specifier {σ : Type} (resolve : Resolver σ) {root : Tree}
    (h : ∀ t ∈ root.preorder, t.importSpecifier? = none) (module : ModuleId) (globs : Bool) (s : σ) :
    ((walkDynamic resolve root module globs).run s).1 = [] := by
  have hnil : (dynamicSpecifiers root module.withoutQuery globs).1 = [] := by
    refine List.eq_nil_iff_forall_not_mem.2 fun x hx => ?_
    obtain ⟨t, ht, hx⟩ := mem_dynamicSpecifiers_iff.1 hx
    simp [h t ht] at hx
  simp only [walkDynamic, hnil]
  rfl

/-! ## Compact calls -/

/-- A tree starts with the word `import` and a parenthesis directly behind it. -/
def IsCompact (t : Tree) : Prop :=
  ∃ u v rest, t.tokens = u :: v :: rest ∧ u.text = "import" ∧ v.gap = "" ∧ v.text = "("

/-- A compact call shows in the text of the script. -/
lemma hasDynamicSyntax_of_compact {dialect : Dialect} {text : String} {root t : Tree}
    (h : parse? dialect text = some root) (ht : t ∈ root.preorder) (hc : IsCompact t) :
    hasDynamicSyntax text = true := by
  obtain ⟨u, v, rest, htokens, hu, hgap, hv⟩ := hc
  have hcall : "import(".toList <:+: t.tokens.flatMap Token.source := by
    refine ⟨u.gap.toList, rest.flatMap Token.source, ?_⟩
    simp [htokens, Token.source, hu, hgap, hv]
  have hroot : t.tokens.flatMap Token.source <:+: Tree.sourceOf [root] := by
    obtain ⟨before, after, hinfix⟩ := Tree.tokens_infix_of_mem_preorder root ht
    refine ⟨before.flatMap Token.source, after.flatMap Token.source, ?_⟩
    rw [← List.flatMap_append, ← List.flatMap_append, hinfix]
    simp [Tree.sourceOf, Tree.tokensOf]
  have hcontains : contains text "import(" = true :=
    contains_iff_infix.2 (hcall.trans (hroot.trans (parse?_source h).isInfix))
  rw [hasDynamicSyntax, hcontains, Bool.true_or]

/-! ## Exactness -/

/-- **When the test changes nothing.** For a script that has been read, the collection has the same
targets as the walk without the test, whatever the resolver answers, exactly when the text of the
script passes the test or no `import` call in the tree has a literal specifier. Every script with a
compact call passes. -/
theorem precheck_iff {dialect : Dialect} {text : String} {root : Tree}
    (h : parse? dialect text = some root) (module : ModuleId) (globs : Bool) :
    ((∀ (σ : Type) (resolve : Resolver σ) (s : σ) (m : ModuleId),
        m ∈ ((collectDynamic resolve (Source.read dialect text) module globs).run s).1.1 ↔
          m ∈ ((walkDynamic resolve root module globs).run s).1) ↔
      hasDynamicSyntax text = true ∨ ∀ t ∈ root.preorder, t.importSpecifier? = none) ∧
    ∀ t ∈ root.preorder, IsCompact t → hasDynamicSyntax text = true := by
  have hroot : (Source.read dialect text).root? = some root := by
    simp only [Source.root?, Source.read, h, Reading.root?]
  refine ⟨⟨fun hsame => ?_, ?_⟩, fun t ht hc => hasDynamicSyntax_of_compact h ht hc⟩
  · by_contra hnot
    rw [not_or, Bool.not_eq_true] at hnot
    obtain ⟨htext, hspecifier⟩ := hnot
    simp only [not_forall] at hspecifier
    obtain ⟨t, ht, hne⟩ := hspecifier
    obtain ⟨x, hx⟩ := Option.ne_none_iff_exists'.1 hne
    -- a resolver that finds the same module everywhere tells the two apart
    let answer : String → ModuleId → Answer := fun _ _ => .found "found"
    let resolve : Resolver Unit := fun s m => pure (answer s m)
    have hfollows : ∀ s m, Settles (fun _ => True) (resolve s m) (answer s m) :=
      fun _ _ => settles_pure _
    have hsettles := (settles_walkDynamic hfollows root module globs () trivial).1
    have hmem : "found" ∈ ((walkDynamic resolve root module globs).run ()).1 := by
      rw [hsettles, dynamicTargets, mem_distinct, List.mem_filterMap]
      refine ⟨.found "found", List.mem_map.2 ⟨x, ?_, rfl⟩, by decide⟩
      exact mem_distinct.2 (mem_dynamicSpecifiers_iff.2 ⟨t, ht, hx⟩)
    have hnone := collectDynamic_of_not_hasDynamicSyntax resolve
      (show hasDynamicSyntax (Source.read dialect text).text = false from htext) module globs ()
    rw [← hsame Unit resolve () "found", hnone] at hmem
    exact List.not_mem_nil hmem
  · rintro (htext | hnone) σ resolve s m
    · rw [collectDynamic_of_hasDynamicSyntax resolve hroot htext]
    · rw [walkDynamic_of_no_specifier resolve hnone]
      cases htext : hasDynamicSyntax text with
      | true =>
        rw [collectDynamic_of_hasDynamicSyntax resolve hroot htext,
          walkDynamic_of_no_specifier resolve hnone]
      | false => rw [collectDynamic_of_not_hasDynamicSyntax resolve htext]

/-- A call with a blank in front of its parenthesis: the walk finds its module, the collection does
not. -/
theorem precheck_misses_spaced_call :
    ∃ root, parse? .javascript "import ('./a')" = some root ∧
      (∃ t ∈ root.preorder, t.importSpecifier? = some "./a") ∧
      ¬ ∀ (σ : Type) (resolve : Resolver σ) (s : σ) (m : ModuleId),
        m ∈ ((collectDynamic resolve (Source.read .javascript "import ('./a')") "/app/i.ts" true).run
            s).1.1 ↔
          m ∈ ((walkDynamic resolve root "/app/i.ts" true).run s).1 := by
  have hread : ((parse? .javascript "import ('./a')").map fun root =>
      root.preorder.filterMap Tree.importSpecifier?) = some ["./a"] := by decide +kernel
  obtain ⟨root, hroot, hspecifiers⟩ := Option.map_eq_some_iff.1 hread
  have hcall : ∃ t ∈ root.preorder, t.importSpecifier? = some "./a" :=
    List.mem_filterMap.1 (hspecifiers ▸ List.mem_singleton_self "./a")
  refine ⟨root, hroot, hcall, fun hsame => ?_⟩
  obtain ⟨t, ht, hspecifier⟩ := hcall
  rcases (precheck_iff hroot "/app/i.ts" true).1.1 hsame with htext | hnone
  · exact absurd htext (by decide)
  · rw [hnone t ht] at hspecifier
    cases hspecifier

end RouteAssets.Imports
