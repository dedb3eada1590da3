import RouteAssets.Proofs.Route.Ending
import RouteAssets.Proofs.Script.Wrapping

/-!
# Routes do not see wrappers

Whether the expressions that define routes stand in parentheses or behind type operators does not
show in the routes. Every question that the definitions ask is answered alike for related trees, and
the depth to which arrays are opened does not matter (`definitions_eq_some_iff`), although a script
with wrappers is larger.

The types that stand in the wrappers do matter. A type is walked like everything else, so a type that
imports something may become a component, and one that creates a router defines its routes
(`definitions_see_creators`). Types that do neither are **passive** (`isPassive`), and with these
nothing changes (`definitions_eq_of_wraps`).
-/

namespace RouteAssets.Route

open RouteAssets.Script RouteAssets.Script.Tree

/-- No part of the tree is a call of `import`. -/
def importsNothing (t : Tree) : Bool := t.preorder.all fun u => !u.isImportCall

/-- No part of the tree is a call of `import` or creates a router. -/
def isPassive (t : Tree) : Bool :=
  t.preorder.all fun u => !u.isImportCall && !u.calleeName?.any creators.contains

section Questions

variable {constants constants' : Table String Tree} {t t' object object' : Tree}
  {objects objects' : List Tree}

/-! ## Components -/

/-- A search that finds something only where a test holds finds nothing where it never does. -/
lemma filterMap_preorder_eq_nil {α : Type} {f : Tree → Option α} {test : Tree → Bool}
    (hf : ∀ u, test u = true → f u = none) (ht : t.preorder.all test = true) :
    t.preorder.filterMap f = [] := by
  rw [List.filterMap_eq_nil_iff]
  exact fun u hu => hf u (List.all_eq_true.1 ht u hu)

/-- A wrapper calls nothing. -/
lemma callee?_of_isTransparent {k : NodeKind} (hk : k.isTransparent = true) (ts : List Tree) :
    (node k ts).callee? = none := by
  cases k <;> first | rfl | cases hk

/-- Literal specifiers of calls of `import` are found alike. -/
lemma findsAlike_importSpecifier? :
    FindsAlike isPassive Eq Tree.importSpecifier? Tree.importSpecifier? where
  same h := by
    rw [h.importSpecifier?_eq]
    cases Tree.importSpecifier? _ with
    | none => exact .none
    | some s => exact .some rfl
  token _ := rfl
  wrapper k ts hk := by simp [importSpecifier?, isImportCall, callee?_of_isTransparent hk]
  operand t ht := by
    refine filterMap_preorder_eq_nil (fun u hu => ?_) ht
    rw [Bool.and_eq_true, Bool.not_eq_true'] at hu
    simp [importSpecifier?, hu.1]

/-- The same tree has the same first literal specifier. -/
lemma firstDynamicSpecifier?_eq (h : Same isPassive t t') :
    Imports.firstDynamicSpecifier? t' = Imports.firstDynamicSpecifier? t := by
  have hfound := forall₂_filterMap_preorder findsAlike_importSpecifier? false t t' h
  rw [List.forall₂_eq_eq_eq] at hfound
  rw [Imports.firstDynamicSpecifier?, Imports.firstDynamicSpecifier?, walk_eq_preorder,
    walk_eq_preorder, ← List.head?_filterMap, ← List.head?_filterMap, hfound]

/-- A wrapped value denotes the same component. -/
lemma componentOf_eq (h : Wrapped isPassive t t') : componentOf t' = componentOf t := by
  simp only [componentOf, h.unwrap.variableName?_eq, firstDynamicSpecifier?_eq h.unwrap]

/-! ## Objects -/

/-- Constants of the same names with values that may be wrapped. -/
def ConstantsWrapped (constants constants' : Table String Tree) : Prop :=
  ∀ name, Option.Rel (Wrapped isPassive) (constants.get? name) (constants'.get? name)

/-- A wrapped tree stands for the same tree. -/
lemma dereference?_rel (hc : ConstantsWrapped constants constants') (h : Wrapped isPassive t t') :
    Option.Rel (Same isPassive) (dereference? constants t) (dereference? constants' t') := by
  unfold dereference?
  rw [h.unwrap.variableName?_eq]
  cases t.unwrap.variableName? with
  | none => exact .some h.unwrap
  | some name =>
    dsimp only
    rcases exists_of_rel (hc name) with ⟨hnone, hnone'⟩ | ⟨v, v', hv, hv', hvalue⟩
    · rw [hnone, hnone']
      exact .none
    · rw [hv, hv']
      exact .some hvalue.unwrap

/-- A wrapped array has the same objects. -/
lemma forall₂_objectsOf (hc : ConstantsWrapped constants constants') (h : Wrapped isPassive t t') :
    List.Forall₂ (Same isPassive) (objectsOf constants t) (objectsOf constants' t') := by
  unfold objectsOf
  rcases exists_of_rel (dereference?_rel hc h) with ⟨hnone, hnone'⟩ | ⟨a, a', ha, ha', harray⟩
  · rw [hnone, hnone']
    exact .nil
  · rw [ha, ha']
    have hobject : ∀ {t t'}, Same isPassive t t' →
        (t.isNode .object = true ↔ t'.isNode .object = true) := by
      intro t t' ht
      rw [ht.isNode_eq]
    exact List.rel_filter (p := isNode .object) (q := isNode .object) (fun _ _ ht => hobject ht)
      (List.rel_filterMap (fun _ _ ht => dereference?_rel hc ht) harray.wrapped.elements)

/-- The same object gives the same path. -/
lemma pathOf_eq (h : Same isPassive object object') : pathOf object' = pathOf object := by
  unfold pathOf
  rcases exists_of_rel (h.wrapped.properties "path") with ⟨hnone, hnone'⟩ | ⟨v, v', hv, hv', hvalue⟩
  · rw [hnone, hnone']
  · rw [hv, hv', Option.bind_some, Option.bind_some, hvalue.stringValue?_eq]

/-- The same object defines the same route itself. -/
lemma ownDefinition_congr (parent : String) (h : Same isPassive object object') :
    ownDefinition parent object' = ownDefinition parent object := by
  unfold ownDefinition
  rw [pathOf_eq h]
  rcases exists_of_rel (h.wrapped.properties "component") with
    ⟨hnone, hnone'⟩ | ⟨v, v', hv, hv', hvalue⟩
  · rw [hnone, hnone']
  · simp only [hv, hv', componentOf_eq hvalue]

/-! ## Definitions -/

/-- The same objects have the same routes, if this holds of the arrays of their children. -/
lemma definitionsOf_congr {children children' : Tree → String → Option (List Definition)}
    (hchildren : ∀ {array array'} parent, Wrapped isPassive array array' →
      children' array' parent = children array parent)
    (h : List.Forall₂ (Same isPassive) objects objects') (parent : String) :
    definitionsOf children' parent objects' = definitionsOf children parent objects := by
  induction h with
  | nil => rfl
  | @cons object object' objects objects' hobject _ ih =>
    have hinner : innerDefinitions children' parent object' =
        innerDefinitions children parent object := by
      unfold innerDefinitions
      rw [pathOf_eq hobject]
      rcases exists_of_rel (hobject.wrapped.properties "children") with
        ⟨hnone, hnone'⟩ | ⟨array, array', harray, harray', hwrapped⟩
      · rw [hnone, hnone']
      · rw [harray, harray']
        exact hchildren _ hwrapped
    rw [definitionsOf_cons, definitionsOf_cons, ih, hinner, ownDefinition_congr parent hobject]

/-- A wrapped array has the same routes to each depth. -/
lemma definitionsUpTo_congr (hc : ConstantsWrapped constants constants') (n : ℕ)
    (h : Wrapped isPassive t t') (parent : String) :
    definitionsUpTo constants' n t' parent = definitionsUpTo constants n t parent := by
  induction n generalizing t t' parent with
  | zero => rfl
  | succ n ih =>
    exact definitionsOf_congr (fun parent harray => ih harray parent) (forall₂_objectsOf hc h) parent

/-- The same call gives the same routes to a router, in an array that may be wrapped. -/
lemma givenRoutes?_rel (hc : ConstantsWrapped constants constants') (h : Same isPassive t t') :
    Option.Rel (Wrapped isPassive) (givenRoutes? constants t) (givenRoutes? constants' t') := by
  have harguments := h.callArguments
  unfold givenRoutes?
  rw [h.calleeName?_eq]
  cases t.calleeName? with
  | none => exact .none
  | some name =>
    generalize t.callArguments = args at harguments
    generalize t'.callArguments = args' at harguments
    cases harguments with
    | nil => exact .none
    | cons hfirst _ =>
      dsimp only
      split
      · rcases exists_of_rel (dereference?_rel hc hfirst) with
          ⟨hnone, hnone'⟩ | ⟨o, o', ho, ho', hsame⟩
        · rw [hnone, hnone']
          exact .none
        · rw [ho, ho']
          exact hsame.wrapped.properties "routes"
      · exact .none

/-- Routes that are given to a router are found alike. -/
lemma findsAlike_givenRoutes? (hc : ConstantsWrapped constants constants') :
    FindsAlike isPassive (Wrapped isPassive) (givenRoutes? constants) (givenRoutes? constants') where
  same h := givenRoutes?_rel hc h
  token _ := rfl
  wrapper k ts hk := by simp [givenRoutes?, calleeName?, callee?_of_isTransparent hk]
  operand t ht := by
    refine filterMap_preorder_eq_nil (fun u hu => ?_) ht
    rw [Bool.and_eq_true, Bool.not_eq_true', Bool.not_eq_true'] at hu
    unfold givenRoutes?
    split
    · rename_i name _ _ hname _
      rw [hname, Option.any_some] at hu
      rw [hu.2, if_neg Bool.false_ne_true]
    · rfl

end Questions

/-! ## Scripts -/

section Scripts

variable {root root' : Tree} {source source' : Source}

/-- The same scripts have the same objects in their route arrays. -/
lemma forall₂_firstObjects (h : Same isPassive root root') (hroot : root.isNode .program = true) :
    List.Forall₂ (Same isPassive) (firstObjects root) (firstObjects root') := by
  have hc : ConstantsWrapped root.constants root'.constants := h.constants hroot
  exact List.rel_flatMap
    (forall₂_filterMap_preorder (findsAlike_givenRoutes? hc) false root root' h)
    fun _ _ harray => forall₂_objectsOf hc harray

/-- A script has the routes that some depth suffices for. -/
lemma definitions_eq_some_iff {ds : List Definition} (hroot : source.root? = some root) :
    definitions source = some ds ↔ ∃ n,
      definitionsOf (definitionsUpTo root.constants n) "" (firstObjects root) = some ds := by
  constructor
  · intro h
    exact ⟨root.size, (definitions_eq hroot).symm.trans h⟩
  · rintro ⟨n, hn⟩
    have hcollects := collects_of_definitionsOf hn
    have hends : definitions source ≠ none := by
      rw [definitions, hroot]
      exact definitionsIn_ne_none (isAcyclic_of_isMet hcollects rfl)
    obtain ⟨ds', hds'⟩ := Option.ne_none_iff_exists'.1 hends
    have hcollects' := collects_of_definitionsOf ((definitions_eq hroot).symm.trans hds')
    rw [hds', Collects.unique hcollects hcollects']

/-- **Wrappers do not show in the routes.** Two scripts define the same routes, if one becomes the
other by wrapping expressions in any number of places and with any comments, and no type in a wrapper
imports something or creates a router. If the definitions of one do not end, neither do those of the
other. -/
theorem definitions_eq_of_wraps (hroot : source.root? = some root)
    (hroot' : source'.root? = some root') (hprogram : root.isNode .program = true)
    (hwraps : wraps isPassive false root root' = true) :
    definitions source' = definitions source := by
  have hc : ConstantsWrapped root.constants root'.constants :=
    Same.constants hwraps hprogram
  have hdepths : ∀ n, definitionsOf (definitionsUpTo root'.constants n) "" (firstObjects root') =
      definitionsOf (definitionsUpTo root.constants n) "" (firstObjects root) := fun n =>
    definitionsOf_congr (fun parent harray => definitionsUpTo_congr hc n harray parent)
      (forall₂_firstObjects hwraps hprogram) ""
  ext ds
  simp only [definitions_eq_some_iff hroot, definitions_eq_some_iff hroot', hdepths]

/-- A script whose routes are a constant. -/
def plainScript : Source :=
  Source.read .typescript "const k=[\x7bcomponent:X\x7d];createRouter(\x7broutes:k\x7d)"

/-- The same script with wrappers around the component, the constant, the function that is called and
the routes. -/
def wrappedScript : Source :=
  Source.read .typescript
    ("const k=[\x7bcomponent:(X)\x7d]as T;" ++
      "createRouter!(\x7broutes:/* all */((k)satisfies T)\x7d)")

/-- The routes of the plain script, and how it is wrapped. -/
lemma read_wrappedScript :
    (match plainScript.root?, wrappedScript.root? with
      | some root, some root' => root.isNode .program && wraps isPassive false root root'
      | _, _ => false) = true ∧
    definitions plainScript = some [⟨"", "/", .named "X"⟩] := by decide +kernel

/-- A script with wrappers in four places defines what it defines without them. -/
theorem definitions_eq_of_wraps_everywhere :
    definitions plainScript = some [⟨"", "/", .named "X"⟩] ∧
    definitions wrappedScript = definitions plainScript := by
  obtain ⟨hread, hplain⟩ := read_wrappedScript
  refine ⟨hplain, ?_⟩
  split at hread
  · rename_i root root' hroot hroot'
    rw [Bool.and_eq_true] at hread
    exact definitions_eq_of_wraps hroot hroot' hread.1 hread.2
  · cases hread

/-- A script that gives no routes to its router. -/
def emptyScript : Source := Source.read .typescript "createRouter(\x7broutes:[]\x7d)"

/-- The same script with a type for the routes, in which a router is created. -/
def creatingScript : Source :=
  Source.read .typescript
    ("createRouter(\x7broutes:[]as\x7b[createRouter(\x7broutes:[\x7bcomponent:X\x7d]\x7d)]:" ++
      "T\x7d\x7d)")

/-- The routes of the two scripts, and how one is wrapped. -/
lemma read_creatingScript :
    (match emptyScript.root?, creatingScript.root? with
      | some root, some root' => root.isNode .program && wraps importsNothing false root root'
      | _, _ => false) = true ∧
    definitions emptyScript = some [] ∧
    definitions creatingScript = some [⟨"", "/", .named "X"⟩] := by decide +kernel

/-- It does not suffice that the types in wrappers import nothing: a router that is created in a type
has its routes, although the routes that are referred to are acyclic. -/
theorem definitions_see_creators :
    ¬ ∀ (source source' : Source) (root root' : Tree), source.root? = some root →
      source'.root? = some root' → root.isNode .program = true → IsAcyclic root →
      wraps importsNothing false root root' = true →
      definitions source' = definitions source := by
  intro hall
  obtain ⟨hread, hempty, hcreating⟩ := read_creatingScript
  split at hread
  · rename_i root root' hroot hroot'
    rw [Bool.and_eq_true] at hread
    obtain ⟨n, hn⟩ := (definitions_eq_some_iff hroot).1 hempty
    have hacyclic := isAcyclic_of_isMet (collects_of_definitionsOf hn) rfl
    have heq := hall _ _ root root' hroot hroot' hread.1 hacyclic hread.2
    rw [hempty, hcreating] at heq
    cases heq
  · cases hread

end Scripts

end RouteAssets.Route
