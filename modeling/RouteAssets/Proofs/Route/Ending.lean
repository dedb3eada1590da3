import RouteAssets.Proofs.Route.Definition
import Mathlib.Computability.StateTransition
import Mathlib.Data.Fintype.Card
import Mathlib.Data.Set.Finite.Basic
import Mathlib.Order.WellFounded

/-!
# When the routes of a script end

The routes of a script are collected array by array: the objects of an array are taken in turn, and
before the next one the array of its children is gone through. Nothing but the end of an array ends
this. It is a machine with a stack of open arrays (`Work.step`), and it needs no bound on its depth.

* **A step** (`IsFinite.of_step`): if below the objects that are pending behind it there is a finite
  depth only, so there is below those that were pending in front of it.
* **A run that ends** (`IsFinite.of_reaches`) has started with objects of this kind, by induction from
  its end, and then no object is nested in itself.
* **A depth that suffices** gives the routes that the machine collects
  (`reaches_of_definitionsUpTo`), and **a depth that does not** is a height of its stack
  (`exists_reaches_of_definitionsOf_eq_none`), both by induction on the depth.
* **Places** (`isAcyclic_iff_not_returns`): it does not matter whether objects are told apart by what
  they are or by where they stand.
* **Routes without names** (`isAcyclic_of_namesNothing`): an object that holds its children itself is
  larger than these, so that only names can lead back to it.
-/

namespace RouteAssets.Route

open RouteAssets.Script Relation StateTransition

/-! ## Work -/

/-- An array that is open: the full path above it, and its objects that are still to be taken. -/
structure Frame where
  parent : String
  pending : List Tree

/-- What is to be done, the innermost array first, and the routes that are found so far. -/
structure Work where
  frames : List Frame
  found : List Definition

/-- One step. An array without pending objects is closed. Otherwise the first of them defines its own
route, and the array of its children is opened. -/
def Work.step (constants : Table String Tree) : Work → Option Work
  | ⟨[], _⟩ => none
  | ⟨⟨_, []⟩ :: frames, found⟩ => some ⟨frames, found⟩
  | ⟨⟨parent, object :: objects⟩ :: frames, found⟩ =>
    some ⟨⟨joinPath parent (pathOf object), childObjects constants object⟩ ::
      ⟨parent, objects⟩ :: frames, found ++ ownDefinition parent object⟩

/-- Nothing is done: the objects of the route arrays are pending. -/
def Work.start (root : Tree) : Work := ⟨[⟨"", firstObjects root⟩], []⟩

/-- Some work is met while the routes of a script are collected. -/
def IsMet (root : Tree) (w : Work) : Prop :=
  Reaches (Work.step root.constants) (Work.start root) w

/-- The routes of a script are collected to the end. -/
def Collects (root : Tree) (ds : List Definition) : Prop := IsMet root ⟨[], ds⟩

/-- Objects below the ones that are pending are nested to a finite depth only. -/
def Work.IsFinite (constants : Table String Tree) (w : Work) : Prop :=
  ∀ frame ∈ w.frames, ∀ object ∈ frame.pending, Acc (Function.swap (Nests constants)) object

variable {constants : Table String Tree} {root object : Tree} {objects behind : List Tree}
  {parent : String} {frames : List Frame} {found ds : List Definition} {w w' : Work}

/-- Work without a next step is done. -/
lemma frames_eq_nil_of_step (h : w.step constants = none) : w.frames = [] := by
  obtain ⟨_ | ⟨⟨parent, _ | ⟨object, objects⟩⟩, frames⟩, found⟩ := w
  · rfl
  · cases h
  · cases h

/-! ## Runs that end -/

/-- **What a step preserves**, from its end to its start. -/
lemma Work.IsFinite.of_step (hstep : w.step constants = some w') (h : w'.IsFinite constants) :
    w.IsFinite constants := by
  obtain ⟨_ | ⟨⟨parent, _ | ⟨object, objects⟩⟩, frames⟩, found⟩ := w
  · cases hstep
  · cases hstep
    exact List.forall_mem_cons.2 ⟨List.forall_mem_nil _, h⟩
  · cases hstep
    obtain ⟨hchildren, htail⟩ := List.forall_mem_cons.1 h
    obtain ⟨hsiblings, hframes⟩ := List.forall_mem_cons.1 htail
    exact List.forall_mem_cons.2
      ⟨List.forall_mem_cons.2 ⟨.intro object hchildren, hsiblings⟩, hframes⟩

/-- **What a run that ends tells about its start.** -/
lemma Work.IsFinite.of_reaches (h : Reaches (Work.step constants) w w') (hdone : w'.frames = []) :
    w.IsFinite constants := by
  induction h using ReflTransGen.head_induction_on with
  | refl =>
    unfold Work.IsFinite
    rw [hdone]
    exact List.forall_mem_nil _
  | head hstep _ ih => exact ih.of_step hstep

/-- A script whose routes are collected to the end has no object that is nested in itself. -/
lemma isAcyclic_of_isMet (h : IsMet root w) (hdone : w.frames = []) : IsAcyclic root := by
  have hfinite := Work.IsFinite.of_reaches h hdone
  exact isAcyclic_of_acc (hfinite _ List.mem_cons_self)

/-! ## Depths -/

/-- The routes of the children of an object. -/
def innerDefinitions (children : Tree → String → Option (List Definition)) (parent : String)
    (object : Tree) : Option (List Definition) :=
  match object.properties.get? "children" with
  | some array => children array (joinPath parent (pathOf object))
  | none => some []

/-- The routes of an object in front of others. -/
lemma definitionsOf_cons {children : Tree → String → Option (List Definition)} :
    definitionsOf children parent (object :: objects) =
      (innerDefinitions children parent object).bind fun inner =>
        (definitionsOf children parent objects).map fun rest =>
          ownDefinition parent object ++ inner ++ rest := by
  rw [definitionsOf, innerDefinitions]
  cases object.properties.get? "children" with
  | none => cases definitionsOf children parent objects <;> rfl
  | some array =>
    dsimp only
    cases children array (joinPath parent (pathOf object)) with
    | none => rfl
    | some inner => cases definitionsOf children parent objects <;> rfl

/-- Objects are gone through up to those behind them, if this holds of the arrays of their
children. -/
lemma reaches_of_definitionsOf {children : Tree → String → Option (List Definition)}
    (hchildren : ∀ array parent ds frames found, children array parent = some ds →
      Reaches (Work.step constants) ⟨⟨parent, objectsOf constants array⟩ :: frames, found⟩
        ⟨frames, found ++ ds⟩)
    (h : definitionsOf children parent objects = some ds) :
    Reaches (Work.step constants) ⟨⟨parent, objects ++ behind⟩ :: frames, found⟩
      ⟨⟨parent, behind⟩ :: frames, found ++ ds⟩ := by
  induction objects generalizing found ds with
  | nil =>
    cases h
    rw [List.append_nil]
    exact .refl
  | cons object objects ih =>
    obtain ⟨inner, rest, hsome, hnone, hrest, rfl⟩ := exists_of_definitionsOf_cons h
    have hinner : Reaches (Work.step constants)
        ⟨⟨joinPath parent (pathOf object), childObjects constants object⟩ ::
          ⟨parent, objects ++ behind⟩ :: frames, found ++ ownDefinition parent object⟩
        ⟨⟨parent, objects ++ behind⟩ :: frames, found ++ ownDefinition parent object ++ inner⟩ := by
      unfold childObjects
      cases harray : object.properties.get? "children" with
      | none =>
        rw [hnone harray, List.append_nil]
        exact .single rfl
      | some array => exact hchildren _ _ _ _ _ (hsome array harray)
    have hall := hinner.trans (ih hrest)
    rw [← List.append_assoc, ← List.append_assoc]
    exact .head rfl hall

/-- The objects of an array are gone through when a depth suffices for them. -/
lemma reaches_of_definitionsUpTo {n : Nat} {array : Tree}
    (h : definitionsUpTo constants n array parent = some ds) :
    Reaches (Work.step constants) ⟨⟨parent, objectsOf constants array⟩ :: frames, found⟩
      ⟨frames, found ++ ds⟩ := by
  induction n generalizing array parent ds frames found with
  | zero => cases h
  | succ n ih =>
    have hobjects : Reaches (Work.step constants)
        ⟨⟨parent, objectsOf constants array ++ []⟩ :: frames, found⟩
        ⟨⟨parent, []⟩ :: frames, found ++ ds⟩ :=
      reaches_of_definitionsOf (fun _ _ _ _ _ => ih) h
    rw [List.append_nil] at hobjects
    exact hobjects.tail rfl

/-- Where the routes of some objects do not end, those of the children of the first one do not, or
its routes end and those of the others do not. -/
lemma definitionsOf_cons_eq_none {children : Tree → String → Option (List Definition)}
    (h : definitionsOf children parent (object :: objects) = none) :
    (∃ array, object.properties.get? "children" = some array ∧
      children array (joinPath parent (pathOf object)) = none) ∨
    definitionsOf children parent objects = none ∧
      ∃ inner, definitionsOf children parent [object] = some inner := by
  rw [definitionsOf_cons] at h
  cases hinner : innerDefinitions children parent object with
  | none =>
    unfold innerDefinitions at hinner
    cases hchildren : object.properties.get? "children" with
    | none => simp [hchildren] at hinner
    | some array => exact Or.inl ⟨array, rfl, by simpa [hchildren] using hinner⟩
  | some inner =>
    rw [hinner, Option.bind_some, Option.map_eq_none_iff] at h
    refine Or.inr ⟨h, ownDefinition parent object ++ inner ++ [], ?_⟩
    rw [definitionsOf_cons, hinner]
    rfl

/-- Where a depth does not suffice for some objects, an array is opened in them for which one less
does not. -/
lemma exists_reaches_opened {n : Nat}
    (h : definitionsOf (definitionsUpTo constants n) parent objects = none) :
    ∃ array parent' objects' found', definitionsUpTo constants n array parent' = none ∧
      Reaches (Work.step constants) ⟨⟨parent, objects⟩ :: frames, found⟩
        ⟨⟨parent', objectsOf constants array⟩ :: ⟨parent, objects'⟩ :: frames, found'⟩ := by
  induction objects generalizing found with
  | nil => cases h
  | cons object objects ih =>
    rcases definitionsOf_cons_eq_none h with ⟨array, harray, hnone⟩ | ⟨hrest, inner, hinner⟩
    · have hopened : childObjects constants object = objectsOf constants array := by
        rw [childObjects, harray]
      refine ⟨array, _, objects, found ++ ownDefinition parent object, hnone, .single ?_⟩
      rw [Work.step, hopened]
      rfl
    · have hfirst : Reaches (Work.step constants) ⟨⟨parent, [object] ++ objects⟩ :: frames, found⟩
          ⟨⟨parent, objects⟩ :: frames, found ++ inner⟩ :=
        reaches_of_definitionsOf (fun _ _ _ _ _ => reaches_of_definitionsUpTo) hinner
      obtain ⟨array, parent', objects', found', hnone, hreaches⟩ := @ih (found ++ inner) hrest
      exact ⟨array, parent', objects', found', hnone, hfirst.trans hreaches⟩

/-- **A depth that does not suffice** is a height of the stack: as many arrays are open at once. -/
lemma exists_reaches_of_definitionsOf_eq_none {n : Nat}
    (h : definitionsOf (definitionsUpTo constants n) parent objects = none) :
    ∃ w, Reaches (Work.step constants) ⟨⟨parent, objects⟩ :: frames, found⟩ w ∧
      w.frames.length = frames.length + n + 2 := by
  induction n generalizing parent objects frames found with
  | zero =>
    obtain ⟨array, parent', objects', found', -, hreaches⟩ := exists_reaches_opened h
    exact ⟨_, hreaches, rfl⟩
  | succ n ih =>
    obtain ⟨array, parent', objects', found', hnone, hopened⟩ := exists_reaches_opened h
    obtain ⟨w, hreaches, hlength⟩ := ih hnone
    refine ⟨w, hopened.trans hreaches, ?_⟩
    rw [hlength, List.length_cons]
    omega

/-- Objects in front of others have their routes in front. -/
lemma definitionsOf_append {children : Tree → String → Option (List Definition)} :
    definitionsOf children parent (objects ++ behind) =
      (definitionsOf children parent objects).bind fun ds =>
        (definitionsOf children parent behind).map (ds ++ ·) := by
  induction objects with
  | nil => cases h : definitionsOf children parent behind <;> simp [definitionsOf, h]
  | cons object objects ih =>
    rw [List.cons_append, definitionsOf_cons, definitionsOf_cons, ih]
    rcases innerDefinitions children parent object with _ | inner
    · rfl
    · rcases definitionsOf children parent objects with _ | ds
      · rfl
      · rcases definitionsOf children parent behind with _ | rest
        · rfl
        · simp

/-- The routes of some arrays are those of their objects together. -/
lemma definitionsIn_eq (root : Tree) (arrays : List Tree) :
    definitionsIn root arrays = definitionsOf (definitionsUpTo root.constants root.size) ""
      (arrays.flatMap (objectsOf root.constants)) := by
  induction arrays with
  | nil => rfl
  | cons array arrays ih =>
    rw [List.flatMap_cons, definitionsOf_append, ← ih, definitionsIn, definitionsUpTo]
    rcases definitionsOf _ "" (objectsOf root.constants array) with _ | ds
    · rfl
    · rcases definitionsIn root arrays with _ | rest <;> rfl

/-- The routes of a script are those of the objects in its route arrays. -/
lemma definitions_eq {source : Source} (hroot : source.root? = some root) :
    definitions source =
      definitionsOf (definitionsUpTo root.constants root.size) "" (firstObjects root) := by
  rw [definitions, hroot, firstObjects, ← routeArrays_eq, ← definitionsIn_eq]

/-- The routes that a depth suffices for are collected. -/
lemma collects_of_definitionsOf {n : Nat}
    (h : definitionsOf (definitionsUpTo root.constants n) "" (firstObjects root) = some ds) :
    Collects root ds := by
  have hobjects : IsMet root ⟨[⟨"", []⟩], ds⟩ := by
    have hreaches := @reaches_of_definitionsOf root.constants _ [] "" [] [] _ _
      (fun _ _ _ _ _ => reaches_of_definitionsUpTo) h
    rwa [List.append_nil] at hreaches
  exact hobjects.tail rfl

/-- No depth suffices for objects that are nested in themselves. -/
lemma definitionsOf_eq_none (h : ¬ IsAcyclic root) (n : Nat) :
    definitionsOf (definitionsUpTo root.constants n) "" (firstObjects root) = none := by
  by_contra hsome
  obtain ⟨ds, hds⟩ := Option.ne_none_iff_exists'.1 hsome
  exact h (isAcyclic_of_isMet (collects_of_definitionsOf hds) rfl)

/-- There is one list of routes that is collected. -/
lemma Collects.unique {ds' : List Definition} (h : Collects root ds) (h' : Collects root ds') :
    ds' = ds := by
  have hend := mem_eval.2 ⟨h, rfl⟩
  have hend' := mem_eval.2 ⟨h', rfl⟩
  exact congrArg Work.found (Part.mem_unique hend' hend)

/-! ## Places -/

/-- The places of a script at which objects stand, and the places that their children lead to, in
order. Equal objects may stand at different places. -/
structure Places (root : Tree) where
  Place : Type
  finite : Finite Place
  object : Place → Tree
  children : Place → List Place
  firsts : List Place
  map_children : ∀ p, (children p).map object = childObjects root.constants (object p)
  map_firsts : firsts.map object = firstObjects root

namespace Places

variable {places : Places root}

/-- The children of the object at a place lead to another place. -/
def Leads (places : Places root) (p q : places.Place) : Prop := q ∈ places.children p

/-- A place is reached from the route arrays of the script. -/
def IsReached (places : Places root) (p : places.Place) : Prop :=
  ∃ first ∈ places.firsts, ReflTransGen places.Leads first p

/-- A place that is reached leads back to itself. -/
def Returns (places : Places root) : Prop :=
  ∃ p, places.IsReached p ∧ TransGen places.Leads p p

/-- Of two places that are reached, the second one leads to the first one. -/
def Behind (places : Places root) (q p : {p // places.IsReached p}) : Prop :=
  TransGen places.Leads p.1 q.1

/-- The parts of a script, each in one place. -/
def ofParts (root : Tree) : Places root where
  Place := {t : Tree // t ∈ root.preorder}
  finite := Set.Finite.to_subtype (List.finite_toSet root.preorder)
  object := Subtype.val
  children p := (childObjects root.constants p.1).attach.map fun inner =>
    ⟨inner.1, mem_preorder_of_nests inner.2 p.2⟩
  firsts := (firstObjects root).attach.map fun first =>
    ⟨first.1, mem_preorder_of_isReached ⟨first.1, first.2, .refl⟩⟩
  map_children p := by simp
  map_firsts := by simp

/-- The children of the object at a place stand at the places that it leads to. -/
lemma nests_iff {p : places.Place} {inner : Tree} :
    Nests root.constants (places.object p) inner ↔
      ∃ q, places.Leads p q ∧ places.object q = inner := by
  rw [Nests, ← places.map_children, List.mem_map]
  rfl

/-- What is nested in the object at a place stands at some place that it leads to. -/
lemma exists_of_transGen {p : places.Place} {inner : Tree}
    (h : TransGen (Nests root.constants) (places.object p) inner) :
    ∃ q, TransGen places.Leads p q ∧ places.object q = inner := by
  induction h with
  | single hnests =>
    obtain ⟨q, hleads, rfl⟩ := nests_iff.1 hnests
    exact ⟨q, .single hleads, rfl⟩
  | tail _ hnests ih =>
    obtain ⟨q, hpath, rfl⟩ := ih
    obtain ⟨q', hleads, rfl⟩ := nests_iff.1 hnests
    exact ⟨q', hpath.tail hleads, rfl⟩

/-- What is reached stands at a place that is reached. -/
lemma exists_of_isReached (h : Route.IsReached root object) :
    ∃ p, places.IsReached p ∧ places.object p = object := by
  obtain ⟨first, hfirst, hpath⟩ := h
  rw [← places.map_firsts, List.mem_map] at hfirst
  obtain ⟨p, hp, rfl⟩ := hfirst
  rcases reflTransGen_iff_eq_or_transGen.1 hpath with rfl | hpath
  · exact ⟨p, ⟨p, hp, .refl⟩, rfl⟩
  · obtain ⟨q, hleads, rfl⟩ := exists_of_transGen hpath
    exact ⟨q, ⟨p, hp, hleads.to_reflTransGen⟩, rfl⟩

/-- The object at a place that is reached is reached. -/
lemma isReached_object {p : places.Place} (h : places.IsReached p) :
    Route.IsReached root (places.object p) := by
  obtain ⟨first, hfirst, hpath⟩ := h
  refine ⟨places.object first, ?_, ?_⟩
  · rw [← places.map_firsts]
    exact List.mem_map_of_mem hfirst
  · exact hpath.lift places.object fun _ q hleads => nests_iff.2 ⟨q, hleads, rfl⟩

/-- **An object is nested in itself exactly if a place leads back to itself.** An object that is
nested in itself stands at places that lead to further places of it, and of these there are finitely
many. -/
lemma isAcyclic_iff_not_returns (places : Places root) : IsAcyclic root ↔ ¬ places.Returns := by
  constructor
  · rintro hacyclic ⟨p, hreached, hloop⟩
    apply hacyclic _ (isReached_object hreached)
    exact hloop.lift places.object fun _ q hleads => nests_iff.2 ⟨q, hleads, rfl⟩
  · intro hreturns object hreached hloop
    have hfinite := places.finite
    -- No place is behind itself, so that of finitely many places there is a last one.
    have htrans : IsTrans _ places.Behind := ⟨fun _ _ _ h h' => h'.trans h⟩
    have hirrefl : Std.Irrefl places.Behind := ⟨fun p hp => hreturns ⟨p.1, p.2, hp⟩⟩
    have hwell : WellFounded places.Behind := Finite.wellFounded_of_trans_of_irrefl _
    obtain ⟨p, hp, rfl⟩ := places.exists_of_isReached hreached
    obtain ⟨last, hlast, hnone⟩ := hwell.has_min
      {q | places.object q.1 = places.object p} ⟨⟨p, hp⟩, rfl⟩
    rw [← show places.object last.1 = places.object p from hlast] at hloop
    obtain ⟨q, hpath, hq⟩ := exists_of_transGen hloop
    obtain ⟨first, hfirst, hbefore⟩ := last.2
    exact hnone ⟨q, first, hfirst, hbefore.trans hpath.to_reflTransGen⟩ (hq.trans hlast) hpath

end Places

/-! ## Names -/

/-- No children of an object that is reached are given by a name, neither their array nor one of its
elements. -/
def NamesNothing (root : Tree) : Prop :=
  ∀ object, IsReached root object → ∀ array, object.properties.get? "children" = some array →
    array.unwrap.variableName? = none ∧
      ∀ element ∈ array.unwrap.elements, element.unwrap.variableName? = none

/-- Children that are not given by a name are smaller than the object around them. -/
lemma size_lt_of_nests {inner : Tree} (h : Nests constants object inner)
    (hnames : ∀ array, object.properties.get? "children" = some array →
      array.unwrap.variableName? = none ∧
        ∀ element ∈ array.unwrap.elements, element.unwrap.variableName? = none) :
    inner.size < object.size := by
  unfold Nests childObjects at h
  split at h
  · rename_i array harray
    obtain ⟨harrayName, helementName⟩ := hnames array harray
    obtain ⟨t, ht, element, helement, hinner, -⟩ := mem_objectsOf_iff.1 h
    simp only [dereference?, harrayName, Option.some.injEq] at ht
    subst ht
    simp only [dereference?, helementName element helement, Option.some.injEq] at hinner
    calc inner.size = element.unwrap.size := by rw [hinner]
      _ ≤ element.size := Tree.size_le_of_mem_preorder _ (Tree.unwrap_mem_preorder element)
      _ < array.unwrap.size := Tree.size_lt_of_elements helement
      _ ≤ array.size := Tree.size_le_of_mem_preorder _ (Tree.unwrap_mem_preorder array)
      _ ≤ object.size := Tree.size_le_of_mem_preorder _ (Tree.mem_preorder_of_properties harray)
  · cases h

/-- **Only names lead back**: without them no object is nested in itself, however deep it is. -/
lemma isAcyclic_of_namesNothing (h : NamesNothing root) : IsAcyclic root := by
  intro object hreached hloop
  have hsmaller : ∀ inner, TransGen (Nests root.constants) object inner →
      IsReached root inner ∧ inner.size < object.size := by
    intro inner hpath
    obtain ⟨first, hfirst, hbefore⟩ := hreached
    induction hpath with
    | single hnests =>
      exact ⟨⟨first, hfirst, hbefore.tail hnests⟩,
        size_lt_of_nests hnests (h object ⟨first, hfirst, hbefore⟩)⟩
    | @tail middle inner hpath hnests ih =>
      obtain ⟨⟨first', hfirst', hmiddle⟩, hsize⟩ := ih
      exact ⟨⟨first', hfirst', hmiddle.tail hnests⟩,
        (size_lt_of_nests hnests (h middle ⟨first', hfirst', hmiddle⟩)).trans hsize⟩
  exact Nat.lt_irrefl _ (hsmaller object hloop).2

/-! ## Ends -/

/-- **The routes of a script end exactly if no object that is reached is nested in itself.** What is
collected in the end is the list of routes that the script defines. Otherwise it defines none: no
step is the last one, and more arrays are open at once than any bound allows. It makes no difference
whether an object is reached again at its own place or only an equal one, and as long as no children
are given by names the routes end, however deep they are nested. -/
theorem definitions_end_iff {source : Source} (hroot : source.root? = some root) :
    (IsAcyclic root ↔ ∃ ds, Collects root ds) ∧
    (∀ ds, Collects root ds ↔ definitions source = some ds) ∧
    (¬ IsAcyclic root → definitions source = none ∧
      (∀ w, IsMet root w → ∃ w', w.step root.constants = some w') ∧
      ∀ depth, ∃ w, IsMet root w ∧ depth ≤ w.frames.length) ∧
    (∀ places : Places root, IsAcyclic root ↔ ¬ places.Returns) ∧
    (NamesNothing root → IsAcyclic root) := by
  have hends : IsAcyclic root → ∃ ds, definitions source = some ds ∧ Collects root ds := by
    intro hacyclic
    have hsome := definitionsIn_ne_none hacyclic
    rw [definitionsIn_eq, routeArrays_eq] at hsome
    obtain ⟨ds, hds⟩ := Option.ne_none_iff_exists'.1 hsome
    exact ⟨ds, (definitions_eq hroot).trans hds, collects_of_definitionsOf hds⟩
  have hacyclic : ∀ ds, Collects root ds → IsAcyclic root := fun ds h => isAcyclic_of_isMet h rfl
  refine ⟨⟨fun h => ?_, fun ⟨ds, h⟩ => hacyclic ds h⟩, fun ds => ⟨fun h => ?_, fun h => ?_⟩,
    fun h => ⟨?_, fun w hw => ?_, fun depth => ?_⟩, Places.isAcyclic_iff_not_returns,
    isAcyclic_of_namesNothing⟩
  · obtain ⟨ds, -, hds⟩ := hends h
    exact ⟨ds, hds⟩
  · obtain ⟨ds', hdefinitions, hds'⟩ := hends (hacyclic ds h)
    rw [hdefinitions, h.unique hds']
  · rw [definitions_eq hroot] at h
    exact collects_of_definitionsOf h
  · rw [definitions_eq hroot]
    exact definitionsOf_eq_none h root.size
  · apply Option.ne_none_iff_exists'.1
    intro hlast
    exact h (isAcyclic_of_isMet hw (frames_eq_nil_of_step hlast))
  · obtain ⟨w, hw, hlength⟩ :=
      exists_reaches_of_definitionsOf_eq_none (definitionsOf_eq_none h depth)
    refine ⟨w, hw, ?_⟩
    rw [hlength]
    omega

/-- The routes of nested arrays are collected to the end. A constant that names itself as its children
leads back to its own place, and is opened in itself as often as one likes. -/
theorem definitions_end_iff_of_nested :
    (∃ root, nestedScript.root? = some root ∧ IsAcyclic root ∧
      Collects root [⟨"b", "/a/b", .named "B"⟩, ⟨"/c", "/c", .named "C"⟩]) ∧
    ∃ root, endlessScript.root? = some root ∧ ¬ IsAcyclic root ∧ (Places.ofParts root).Returns ∧
      ∀ depth, ∃ w, IsMet root w ∧ depth ≤ w.frames.length := by
  have hnested := definitions_nestedScript
  have hendless := definitions_endlessScript
  obtain ⟨root, hroot⟩ := exists_root_of_definitions hnested (by simp)
  obtain ⟨root', hroot'⟩ := exists_root_of_definitions hendless (by simp)
  obtain ⟨hiff, hcollects, -⟩ := definitions_end_iff hroot
  obtain ⟨hiff', hcollects', hforever, hplaces, -⟩ := definitions_end_iff hroot'
  have hends := (hcollects _).2 hnested
  have hloop : ¬ IsAcyclic root' := by
    intro h
    obtain ⟨ds, hds⟩ := hiff'.1 h
    rw [hcollects', hendless] at hds
    cases hds
  have hreturns : (Places.ofParts root').Returns := by
    by_contra h
    exact hloop ((hplaces _).2 h)
  exact ⟨⟨root, hroot, hiff.2 ⟨_, hends⟩, hends⟩, root', hroot', hloop, hreturns,
    (hforever hloop).2.2⟩

end RouteAssets.Route
