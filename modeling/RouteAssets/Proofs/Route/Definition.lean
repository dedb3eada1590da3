import RouteAssets.Proofs.Script.Query
import RouteAssets.Route.Definition
import Mathlib.Data.List.Perm.Subperm
import Mathlib.Logic.Relation

/-!
# Which routes a script defines

* **Flattening** (`Unfolds`): what is reached from the objects of the route arrays, each object
  before what is reached through its children, and this before what is reached from the objects
  behind it. What is reached is determined by this (`Unfolds.unique`).
* **Soundness** (`exists_unfolds_of_definitionsUpTo`): routes that are found are those of the
  objects that are reached, in this order.
* **Endless definitions** (`exists_path_of_definitionsUpTo`): where none are found, the objects are
  nested as deep as was looked. There are no more objects than parts of the tree
  (`mem_preorder_of_isReached`), so one of them is nested in itself.
* **Full paths** (`startsWith_fullPathOf`, `fullPathOf_append_of_startsWith`): a full path starts
  with a slash, and nothing above an absolute path has a part in it.
* **Routes** (`definitions_unfold`): all of this together, for every script.
-/

namespace RouteAssets.Route

open RouteAssets.Script RouteAssets.Text Relation

/-! ## Flattening -/

/-- The objects among the children of an object. -/
def childObjects (constants : Table String Tree) (object : Tree) : List Tree :=
  match object.properties.get? "children" with
  | some array => objectsOf constants array
  | none => []

/-- The array of routes that a tree gives to a router, if it is such a call. -/
def givenRoutes? (constants : Table String Tree) (call : Tree) : Option Tree :=
  match call.calleeName?, call.callArguments with
  | some name, options :: _ =>
    if creators.contains name then
      (dereference? constants options).bind fun o => o.properties.get? "routes"
    else none
  | _, _ => none

/-- The objects in the route arrays of a script, in source order. -/
def firstObjects (root : Tree) : List Tree :=
  (root.preorder.filterMap (givenRoutes? root.constants)).flatMap (objectsOf root.constants)

/-- An object that is reached, with the objects that enclose it, the outermost one first. -/
structure Reached where
  above : List Tree
  object : Tree

/-- The objects from the outermost one to the one that is reached. -/
def Reached.chain (r : Reached) : List Tree := r.above ++ [r.object]

/-- The full path of nested objects: their paths, joined from the outside in. -/
def fullPathOf (chain : List Tree) : String := (chain.map pathOf).foldl joinPath ""

/-- The route of an object that is reached, if it has a component. -/
def Reached.definition? (r : Reached) : Option Definition :=
  (r.object.properties.get? "component").map fun value =>
    { path := pathOf r.object, fullPath := fullPathOf r.chain, component := componentOf value }

/-- Objects that are enclosed by others unfold to everything that is reached from them: each object,
then what its children unfold to, then what the objects behind it unfold to. -/
inductive Unfolds (constants : Table String Tree) :
    List Tree → List Tree → List Reached → Prop where
  | nil (above : List Tree) : Unfolds constants above [] []
  | cons {above objects : List Tree} {object : Tree} {inner rest : List Reached}
      (children : Unfolds constants (above ++ [object]) (childObjects constants object) inner)
      (siblings : Unfolds constants above objects rest) :
      Unfolds constants above (object :: objects) (⟨above, object⟩ :: (inner ++ rest))

/-- An object has another one among its children. -/
def Nests (constants : Table String Tree) (object inner : Tree) : Prop :=
  inner ∈ childObjects constants object

/-- An object is reached from the route arrays of a script. -/
def IsReached (root object : Tree) : Prop :=
  ∃ first ∈ firstObjects root, ReflTransGen (Nests root.constants) first object

/-- No object that is reached is nested in itself, directly or through others. -/
def IsAcyclic (root : Tree) : Prop :=
  ∀ object, IsReached root object → ¬ TransGen (Nests root.constants) object object

variable {constants : Table String Tree} {above objects objects' chain : List Tree}
  {reached reached' : List Reached} {root array object : Tree} {ds : List Definition}

/-- What objects unfold to is determined. -/
lemma Unfolds.unique (h : Unfolds constants above objects reached)
    (h' : Unfolds constants above objects reached') : reached' = reached := by
  induction h generalizing reached' with
  | nil =>
    cases h'
    rfl
  | cons _ _ hchildren hsiblings =>
    cases h' with
    | cons children siblings => rw [hchildren children, hsiblings siblings]

/-- Objects in front of others unfold first. -/
lemma Unfolds.append (h : Unfolds constants above objects reached)
    (h' : Unfolds constants above objects' reached') :
    Unfolds constants above (objects ++ objects') (reached ++ reached') := by
  induction h with
  | nil => exact h'
  | cons children _ _ hsiblings =>
    have hall := Unfolds.cons children (hsiblings h')
    rwa [← List.append_assoc] at hall

/-- The objects that unfold are not nested in one another without end. -/
lemma Unfolds.acc (h : Unfolds constants above objects reached) :
    ∀ object ∈ objects, Acc (Function.swap (Nests constants)) object := by
  induction h with
  | nil => exact List.forall_mem_nil _
  | cons _ _ hchildren hsiblings =>
    exact List.forall_mem_cons.2 ⟨.intro _ hchildren, hsiblings⟩

/-! ## Full paths -/

/-- The full path of an object inside others. -/
lemma fullPathOf_concat (above : List Tree) (object : Tree) :
    fullPathOf (above ++ [object]) = joinPath (fullPathOf above) (pathOf object) := by
  unfold fullPathOf
  rw [List.map_append, List.foldl_append]
  rfl

/-- The full path of an object starts with a slash. -/
lemma startsWith_joinPath {parent path : String} (h : parent = "" ∨ startsWith parent "/" = true) :
    startsWith (joinPath parent path) "/" = true := by
  unfold joinPath
  split
  · assumption
  · split
    · simp [startsWith]
    · rename_i hparent
      have hslash : startsWith parent "/" = true := by
        rcases h with rfl | h
        · exact absurd rfl hparent
        · exact h
      unfold startsWith at hslash ⊢
      rw [List.isPrefixOf_iff_prefix] at hslash ⊢
      rw [String.toList_append, String.toList_append, List.append_assoc]
      exact hslash.trans (List.prefix_append _ _)

/-- The full path of nested objects starts with a slash. -/
lemma startsWith_fullPathOf (h : chain ≠ []) : startsWith (fullPathOf chain) "/" = true := by
  induction chain using List.reverseRecOn with
  | nil => exact absurd rfl h
  | append_singleton above object ih =>
    rw [fullPathOf_concat]
    apply startsWith_joinPath
    rcases above with _ | ⟨first, above⟩
    · exact Or.inl rfl
    · exact Or.inr (ih (List.cons_ne_nil first above))

/-- Nothing above an absolute path has a part in the full path. -/
lemma fullPathOf_append_of_startsWith (above below : List Tree)
    (h : startsWith (pathOf object) "/" = true) :
    fullPathOf (above ++ object :: below) = fullPathOf (object :: below) := by
  have habsolute : ∀ parent, joinPath parent (pathOf object) = pathOf object := by
    intro parent
    rw [joinPath, if_pos h]
  unfold fullPathOf
  rw [List.map_append, List.foldl_append, List.map_cons, List.foldl_cons, List.foldl_cons,
    habsolute, habsolute]

/-! ## Soundness -/

/-- What an object defines itself is the route of the object that is reached. -/
lemma ownDefinition_eq (above : List Tree) (object : Tree) :
    ownDefinition (fullPathOf above) object = (Reached.definition? ⟨above, object⟩).toList := by
  unfold ownDefinition Reached.definition? Reached.chain
  rw [fullPathOf_concat]
  cases object.properties.get? "component" <;> rfl

/-- The routes of an object in front of others are its own, then those of its children, then those
of the others. -/
lemma exists_of_definitionsOf_cons {children : Tree → String → Option (List Definition)}
    {parent : String} (h : definitionsOf children parent (object :: objects) = some ds) :
    ∃ inner rest, (∀ array, object.properties.get? "children" = some array →
        children array (joinPath parent (pathOf object)) = some inner) ∧
      (object.properties.get? "children" = none → inner = []) ∧
      definitionsOf children parent objects = some rest ∧
      ds = ownDefinition parent object ++ inner ++ rest := by
  unfold definitionsOf at h
  cases hrest : definitionsOf children parent objects with
  | none => simp [hrest] at h
  | some rest =>
    cases hchildren : object.properties.get? "children" with
    | none =>
      simp only [hchildren, hrest, Option.some.injEq] at h
      exact ⟨[], rest, nofun, fun _ => rfl, rfl, h.symm⟩
    | some array =>
      cases hinner : children array (joinPath parent (pathOf object)) with
      | none => simp [hchildren, hinner] at h
      | some inner =>
        simp only [hchildren, hinner, hrest, Option.some.injEq] at h
        refine ⟨inner, rest, fun array' harray => ?_, nofun, rfl, h.symm⟩
        cases harray
        exact hinner

/-- The routes of some objects are those that are reached, if this holds of their children. -/
lemma exists_unfolds_of_definitionsOf {children : Tree → String → Option (List Definition)}
    (hchildren : ∀ array above ds, children array (fullPathOf above) = some ds →
      ∃ reached, Unfolds constants above (objectsOf constants array) reached ∧
        ds = reached.filterMap Reached.definition?)
    (h : definitionsOf children (fullPathOf above) objects = some ds) :
    ∃ reached, Unfolds constants above objects reached ∧
      ds = reached.filterMap Reached.definition? := by
  induction objects generalizing ds with
  | nil =>
    cases h
    exact ⟨[], .nil above, rfl⟩
  | cons object objects ih =>
    obtain ⟨innerDs, restDs, hsome, hnone, hrest, rfl⟩ := exists_of_definitionsOf_cons h
    rw [← fullPathOf_concat] at hsome
    have hinner : ∃ inner,
        Unfolds constants (above ++ [object]) (childObjects constants object) inner ∧
          innerDs = inner.filterMap Reached.definition? := by
      unfold childObjects
      cases harray : object.properties.get? "children" with
      | none =>
        rw [hnone harray]
        exact ⟨[], .nil _, rfl⟩
      | some array => exact hchildren array _ _ (hsome array harray)
    obtain ⟨inner, hunfolds, rfl⟩ := hinner
    obtain ⟨rest, hsiblings, rfl⟩ := ih hrest
    refine ⟨_, .cons hunfolds hsiblings, ?_⟩
    rw [ownDefinition_eq, List.filterMap_cons, List.filterMap_append]
    cases Reached.definition? ⟨above, object⟩ <;> rfl

/-- The routes of an array are those that are reached from its objects. -/
lemma exists_unfolds_of_definitionsUpTo {n : Nat}
    (h : definitionsUpTo constants n array (fullPathOf above) = some ds) :
    ∃ reached, Unfolds constants above (objectsOf constants array) reached ∧
      ds = reached.filterMap Reached.definition? := by
  induction n generalizing array above ds with
  | zero => cases h
  | succ n ih => exact exists_unfolds_of_definitionsOf (fun _ _ _ hnested => ih hnested) h

/-- The routes of some arrays are those that are reached from the objects in them. -/
lemma exists_unfolds_of_definitionsIn {arrays : List Tree}
    (h : definitionsIn root arrays = some ds) :
    ∃ reached, Unfolds root.constants [] (arrays.flatMap (objectsOf root.constants)) reached ∧
      ds = reached.filterMap Reached.definition? := by
  induction arrays generalizing ds with
  | nil =>
    cases h
    exact ⟨[], .nil [], rfl⟩
  | cons array arrays ih =>
    unfold definitionsIn at h
    cases hfirst : definitionsUpTo root.constants (root.size + 1) array "" with
    | none => simp [hfirst] at h
    | some first =>
      cases hrest : definitionsIn root arrays with
      | none => simp [hrest] at h
      | some rest =>
        simp only [hfirst, hrest, Option.some.injEq] at h
        rw [show "" = fullPathOf [] from rfl] at hfirst
        obtain ⟨reached, hunfolds, rfl⟩ := exists_unfolds_of_definitionsUpTo hfirst
        obtain ⟨others, hothers, rfl⟩ := ih hrest
        refine ⟨reached ++ others, hunfolds.append hothers, ?_⟩
        rw [← h, List.filterMap_append]

/-! ## Endless definitions -/

/-- Where the routes of some objects do not end, those of the children of one of them do not. -/
lemma exists_of_definitionsOf_eq_none {children : Tree → String → Option (List Definition)}
    {parent : String} (h : definitionsOf children parent objects = none) :
    ∃ object ∈ objects, ∃ array parent', object.properties.get? "children" = some array ∧
      children array parent' = none := by
  induction objects with
  | nil => cases h
  | cons object objects ih =>
    by_cases hrest : definitionsOf children parent objects = none
    · obtain ⟨object', hmem, hobject'⟩ := ih hrest
      exact ⟨object', List.mem_cons_of_mem object hmem, hobject'⟩
    · obtain ⟨rest, hrest⟩ := Option.ne_none_iff_exists'.1 hrest
      unfold definitionsOf at h
      cases hchildren : object.properties.get? "children" with
      | none => simp [hchildren, hrest] at h
      | some array =>
        cases hinner : children array (joinPath parent (pathOf object)) with
        | none => exact ⟨object, List.mem_cons_self, array, _, hchildren, hinner⟩
        | some inner => simp [hchildren, hinner, hrest] at h

/-- Where the routes of an array do not end within some depth, there are as many objects that are
nested in one another. -/
lemma exists_path_of_definitionsUpTo {n : Nat} {parent : String}
    (h : definitionsUpTo constants n array parent = none) :
    ∃ path : List Tree, path.length = n ∧ path.Pairwise (TransGen (Nests constants)) ∧
      ∀ object ∈ path, ∃ first ∈ objectsOf constants array,
        ReflTransGen (Nests constants) first object := by
  induction n generalizing array parent with
  | zero => exact ⟨[], rfl, .nil, List.forall_mem_nil _⟩
  | succ n ih =>
    obtain ⟨object, hobject, array', parent', harray', hnone⟩ := exists_of_definitionsOf_eq_none h
    obtain ⟨path, hlength, hpath, hreached⟩ := ih hnone
    have hnests : ∀ inner ∈ objectsOf constants array', Nests constants object inner := by
      intro inner hinner
      unfold Nests childObjects
      rwa [harray']
    refine ⟨object :: path, by rw [List.length_cons, hlength], List.pairwise_cons.2 ⟨?_, hpath⟩,
      List.forall_mem_cons.2 ⟨⟨object, hobject, .refl⟩, ?_⟩⟩
    · intro inner hinner
      obtain ⟨first, hfirst, hinner⟩ := hreached inner hinner
      exact TransGen.head' (hnests first hfirst) hinner
    · intro inner hinner
      obtain ⟨first, hfirst, hinner⟩ := hreached inner hinner
      exact ⟨object, hobject, .head (hnests first hfirst) hinner⟩

/-- The routes of some arrays do not end if those of one of them do not. -/
lemma exists_of_definitionsIn_eq_none {arrays : List Tree} (h : definitionsIn root arrays = none) :
    ∃ array ∈ arrays, definitionsUpTo root.constants (root.size + 1) array "" = none := by
  induction arrays with
  | nil => cases h
  | cons array arrays ih =>
    cases hfirst : definitionsUpTo root.constants (root.size + 1) array "" with
    | none => exact ⟨array, List.mem_cons_self, hfirst⟩
    | some first =>
      have hrest : definitionsIn root arrays = none := by
        cases hrest : definitionsIn root arrays with
        | none => rfl
        | some rest => simp [definitionsIn, hfirst, hrest] at h
      obtain ⟨array', hmem, hnone⟩ := ih hrest
      exact ⟨array', List.mem_cons_of_mem array hmem, hnone⟩

/-! ## Objects that are reached -/

/-- What a tree stands for is part of the script. -/
lemma mem_preorder_of_dereference? {t u : Tree} (h : dereference? root.constants t = some u)
    (ht : t ∈ root.preorder) : u ∈ root.preorder := by
  unfold dereference? at h
  split at h
  · obtain ⟨value, hvalue, rfl⟩ := Option.map_eq_some_iff.1 h
    exact Tree.mem_preorder_trans (Tree.unwrap_mem_preorder value) root
      (Tree.mem_preorder_of_constants hvalue)
  · cases h
    exact Tree.mem_preorder_trans (Tree.unwrap_mem_preorder t) root ht

/-- The objects of an array are what its elements stand for, where these are objects. -/
lemma mem_objectsOf_iff :
    object ∈ objectsOf constants array ↔
      ∃ t, dereference? constants array = some t ∧
        ∃ element ∈ t.elements, dereference? constants element = some object ∧
          object.isNode .object = true := by
  unfold objectsOf
  cases dereference? constants array with
  | none => simp
  | some t => simp [List.mem_filter, List.mem_filterMap, ← exists_and_right, and_assoc]

/-- The objects of an array are parts of the script. -/
lemma mem_preorder_of_objectsOf (h : object ∈ objectsOf root.constants array)
    (harray : array ∈ root.preorder) : object ∈ root.preorder := by
  obtain ⟨t, ht, element, helement, hobject, -⟩ := mem_objectsOf_iff.1 h
  have hpart := Tree.mem_preorder_trans (Tree.mem_preorder_of_elements helement) root
    (mem_preorder_of_dereference? ht harray)
  exact mem_preorder_of_dereference? hobject hpart

/-- The objects among the children of a part of the script are parts of it. -/
lemma mem_preorder_of_nests {inner : Tree} (h : Nests root.constants object inner)
    (hobject : object ∈ root.preorder) : inner ∈ root.preorder := by
  unfold Nests childObjects at h
  split at h
  · rename_i array harray
    exact mem_preorder_of_objectsOf h
      (Tree.mem_preorder_trans (Tree.mem_preorder_of_properties harray) root hobject)
  · cases h

/-- The array that a call gives to a router is part of the script. -/
lemma mem_preorder_of_givenRoutes? {call : Tree}
    (h : givenRoutes? root.constants call = some array) (hcall : call ∈ root.preorder) :
    array ∈ root.preorder := by
  unfold givenRoutes? at h
  split at h
  · rename_i name options rest hname harguments
    split at h
    · obtain ⟨o, ho, harray⟩ := Option.bind_eq_some_iff.1 h
      have hoptions : options ∈ call.preorder := by
        apply Tree.mem_preorder_of_callArguments
        rw [harguments]
        exact List.mem_cons_self
      have hpart := mem_preorder_of_dereference? ho (Tree.mem_preorder_trans hoptions root hcall)
      exact Tree.mem_preorder_trans (Tree.mem_preorder_of_properties harray) root hpart
    · cases h
  · cases h

/-- What is reached is part of the script. -/
lemma mem_preorder_of_isReached (h : IsReached root object) : object ∈ root.preorder := by
  obtain ⟨first, hfirst, hpath⟩ := h
  induction hpath with
  | refl =>
    obtain ⟨array, harray, hobject⟩ := List.mem_flatMap.1 hfirst
    obtain ⟨call, hcall, hgiven⟩ := List.mem_filterMap.1 harray
    exact mem_preorder_of_objectsOf hobject (mem_preorder_of_givenRoutes? hgiven hcall)
  | tail _ hnests ih => exact mem_preorder_of_nests hnests ih

/-- Objects that are nested in one another are no more than the parts of the script, unless one of
them is nested in itself. -/
lemma length_le_size_of_pairwise {path : List Tree} (hacyclic : IsAcyclic root)
    (hpath : path.Pairwise (TransGen (Nests root.constants)))
    (hreached : ∀ object ∈ path, IsReached root object) : path.length ≤ root.size := by
  -- An object that stands twice on the path is nested in itself.
  have hnodup : path.Nodup := by
    refine hpath.imp_of_mem ?_
    rintro object inner hobject - hnested rfl
    exact hacyclic object (hreached object hobject) hnested
  have hparts : path ⊆ root.preorder := fun object hobject =>
    mem_preorder_of_isReached (hreached object hobject)
  rw [← Tree.length_preorder]
  exact (hnodup.subperm hparts).length_le

/-! ## Routes -/

/-- The route arrays of a script are those that its parts give to a router, in their order. -/
lemma routeArrays_eq (root : Tree) :
    routeArrays root = root.preorder.filterMap (givenRoutes? root.constants) := by
  unfold routeArrays
  rw [Tree.walk_eq_preorder]
  rfl

/-- Objects that are not nested in themselves have routes that end. -/
lemma definitionsIn_ne_none (h : IsAcyclic root) :
    definitionsIn root (routeArrays root) ≠ none := by
  intro hnone
  obtain ⟨array, harray, hdeep⟩ := exists_of_definitionsIn_eq_none hnone
  obtain ⟨path, hlength, hpath, hreached⟩ := exists_path_of_definitionsUpTo hdeep
  rw [routeArrays_eq] at harray
  have hbound : path.length ≤ root.size := by
    refine length_le_size_of_pairwise h hpath fun object hobject => ?_
    obtain ⟨first, hfirst, hnested⟩ := hreached object hobject
    exact ⟨first, List.mem_flatMap.2 ⟨array, harray, hfirst⟩, hnested⟩
  -- Looking goes one level deeper than there are parts.
  omega

/-- What is not nested without end is not nested in itself. -/
lemma not_transGen_of_acc {α : Type} {r : α → α → Prop} {a : α} (h : Acc (Function.swap r) a) :
    ¬ TransGen r a a := by
  have hacc := h.transGen
  intro hloop
  -- An element is below itself, against the induction on what is below it.
  have hswap : TransGen (Function.swap r) a a := transGen_swap.2 hloop
  clear hloop h
  induction hacc with
  | intro a _ ih => exact ih a hswap hswap

/-- No object that is reached is nested in itself if those in the route arrays are not nested in
others without end. -/
lemma isAcyclic_of_acc
    (h : ∀ first ∈ firstObjects root, Acc (Function.swap (Nests root.constants)) first) :
    IsAcyclic root := by
  rintro object ⟨first, hfirst, hpath⟩
  apply not_transGen_of_acc
  have hacc := h first hfirst
  clear hfirst
  induction hpath with
  | refl => exact hacc
  | tail _ hnests ih => exact ih.inv hnests

/-- Objects that unfold are not nested in themselves. -/
lemma isAcyclic_of_unfolds (h : Unfolds root.constants [] (firstObjects root) reached) :
    IsAcyclic root :=
  isAcyclic_of_acc h.acc

/-- **The routes of a script are its route arrays, flattened.** They are found exactly if no object
that is reached is nested in itself. Then they are the routes of what the objects in the arrays
unfold to: each object with a component is one route, in front of those of its children, and its
full path is joined from the paths of the objects that enclose it and its own. Every full path
starts with a slash, and what is above an absolute path has no part in it. -/
theorem definitions_unfold {source : Source} (hroot : source.root? = some root) :
    (IsAcyclic root ↔ ∃ ds, definitions source = some ds) ∧
    (IsAcyclic root → ∃ reached, Unfolds root.constants [] (firstObjects root) reached ∧
      (∀ reached', Unfolds root.constants [] (firstObjects root) reached' → reached' = reached) ∧
      definitions source = some (reached.filterMap Reached.definition?) ∧
      ∀ r ∈ reached, startsWith (fullPathOf r.chain) "/" = true ∧
        ∀ above object below, r.chain = above ++ object :: below →
          startsWith (pathOf object) "/" = true →
            fullPathOf r.chain = fullPathOf (object :: below)) := by
  have hdefinitions : definitions source = definitionsIn root (routeArrays root) := by
    unfold definitions
    rw [hroot]
  have hunfolds : ∀ ds, definitions source = some ds →
      ∃ reached, Unfolds root.constants [] (firstObjects root) reached ∧
        ds = reached.filterMap Reached.definition? := by
    intro ds hds
    rw [hdefinitions, routeArrays_eq] at hds
    exact exists_unfolds_of_definitionsIn hds
  have hends : IsAcyclic root → ∃ ds, definitions source = some ds := by
    intro h
    rw [hdefinitions]
    exact Option.ne_none_iff_exists'.1 (definitionsIn_ne_none h)
  refine ⟨⟨hends, fun ⟨ds, hds⟩ => ?_⟩, fun h => ?_⟩
  · obtain ⟨reached, hreached, -⟩ := hunfolds ds hds
    exact isAcyclic_of_unfolds hreached
  · obtain ⟨ds, hds⟩ := hends h
    obtain ⟨reached, hreached, rfl⟩ := hunfolds ds hds
    refine ⟨reached, hreached, fun _ => hreached.unique, hds, fun r _ => ⟨?_, ?_⟩⟩
    · exact startsWith_fullPathOf (List.append_ne_nil_of_right_ne_nil _ (List.cons_ne_nil _ _))
    · intro above object below hchain habsolute
      rw [hchain, fullPathOf_append_of_startsWith above below habsolute]

/-- A script whose routes are nested through a constant. -/
def nestedScript : Source :=
  Source.read .javascript
    ("const kids=[\x7bpath:'b',component:B\x7d,\x7bpath:'/c',component:C\x7d];" ++
      "createRouter(\x7broutes:[\x7bpath:'a',children:kids\x7d]\x7d)")

/-- A script whose routes are nested in themselves. -/
def endlessScript : Source :=
  Source.read .javascript
    "const kids=[\x7bpath:'a',children:kids\x7d];createRouter(\x7broutes:kids\x7d)"

/-- The routes of the nested script. -/
lemma definitions_nestedScript : definitions nestedScript =
    some [⟨"b", "/a/b", .named "B"⟩, ⟨"/c", "/c", .named "C"⟩] := by decide +kernel

/-- The endless script has no routes. -/
lemma definitions_endlessScript : definitions endlessScript = none := by decide +kernel

/-- A script that could not be read has routes, if only an empty list of them. -/
lemma exists_root_of_definitions {source : Source} {found : Option (List Definition)}
    (h : definitions source = found) (hfound : found ≠ some []) :
    ∃ root, source.root? = some root := by
  apply Option.ne_none_iff_exists'.1
  intro hroot
  rw [definitions, hroot] at h
  exact hfound h.symm

/-- An object without a component is no route but passes its path on, and an absolute path forgets
what is above it. A constant that names itself as its children has no routes that end. -/
theorem definitions_unfold_of_nested :
    (∃ root, nestedScript.root? = some root ∧ IsAcyclic root ∧
      ∃ reached, Unfolds root.constants [] (firstObjects root) reached ∧
        reached.filterMap Reached.definition? =
          [⟨"b", "/a/b", .named "B"⟩, ⟨"/c", "/c", .named "C"⟩]) ∧
    ∃ root, endlessScript.root? = some root ∧ ¬ IsAcyclic root := by
  have hnested := definitions_nestedScript
  have hendless := definitions_endlessScript
  obtain ⟨root, hroot⟩ := exists_root_of_definitions hnested (by simp)
  obtain ⟨root', hroot'⟩ := exists_root_of_definitions hendless (by simp)
  have hacyclic := (definitions_unfold hroot).1.2 ⟨_, hnested⟩
  obtain ⟨reached, hreached, -, hdefinitions, -⟩ := (definitions_unfold hroot).2 hacyclic
  rw [hnested, Option.some.injEq] at hdefinitions
  refine ⟨⟨root, hroot, hacyclic, reached, hreached, hdefinitions.symm⟩, root', hroot', fun h => ?_⟩
  obtain ⟨ds, hds⟩ := (definitions_unfold hroot').1.1 h
  rw [hendless] at hds
  cases hds

end RouteAssets.Route
