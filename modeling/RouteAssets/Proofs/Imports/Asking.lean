import RouteAssets.Imports.Dynamic
import Mathlib.Tactic.Lemma

/-!
# Resolvers that follow fixed answers

A computation with a state **settles** on a value (`Settles`) when it comes to this value from every
good state and ends in a good state again: the state is used, but it does not show.

A resolver whose answers are settled may as well have no state (`Resolver.stateless`): what asks it
**mirrors** what asks the other one (`Mirrors`). This is shown once for each way of asking and then
used wherever a resolver is handed on.
-/

namespace RouteAssets

/-- From every good state a computation comes to the value `a` and to a good state. -/
def Settles {σ α : Type} (good : σ → Prop) (x : StateM σ α) (a : α) : Prop :=
  ∀ s, good s → (x.run s).1 = a ∧ good (x.run s).2

section Settles

variable {σ α β : Type} {good : σ → Prop}

/-- A value settles on itself. -/
lemma settles_pure (a : α) : Settles good (pure a) a := fun _ hs => ⟨rfl, hs⟩

/-- Computations after each other settle one by one. -/
lemma Settles.bind {x : StateM σ α} {f : α → StateM σ β} {a : α} {b : β} (hx : Settles good x a)
    (hf : Settles good (f a) b) : Settles good (x >>= f) b := by
  intro s hs
  obtain ⟨ha, hgood⟩ := hx s hs
  have hrun : (x >>= f).run s = (f (x.run s).1).run (x.run s).2 := rfl
  rw [hrun, ha]
  exact hf _ hgood

/-- A list of computations that settle. -/
lemma settles_mapM {f : α → StateM σ β} {g : α → β} {xs : List α}
    (h : ∀ x ∈ xs, Settles good (f x) (g x)) : Settles good (xs.mapM f) (xs.map g) := by
  induction xs with
  | nil => exact settles_pure []
  | cons x xs ih =>
    obtain ⟨hx, hxs⟩ := List.forall_mem_cons.1 h
    rw [List.mapM_cons]
    exact hx.bind ((ih hxs).bind (settles_pure _))

end Settles

section Resolvers

variable {σ : Type} {good : σ → Prop} {resolve : Resolver σ} {answer : String → ModuleId → Answer}

/-- Specifiers that are asked one after another get their own answers. -/
lemma settles_askAll (h : ∀ s m, Settles good (resolve s m) (answer s m)) (importer : ModuleId)
    (specifiers : List String) :
    Settles good (askAll resolve importer specifiers) (specifiers.map fun s => answer s importer) :=
  settles_mapM fun s _ => h s importer

end Resolvers

/-! ## Without a state -/

/-- The resolver that gives fixed answers and keeps nothing. -/
def Resolver.stateless (answer : String → ModuleId → Answer) : Resolver Unit :=
  fun s m => pure (answer s m)

/-- What a computation without a state comes to. -/
def value {α : Type} (x : StateM Unit α) : α := (x.run ()).1

/-- What computations after each other come to. -/
lemma value_bind {α β : Type} (x : StateM Unit α) (f : α → StateM Unit β) :
    value (x >>= f) = value (f (value x)) := rfl

/-- What a value comes to. -/
@[simp] lemma value_pure {α : Type} (a : α) : value (pure a) = a := rfl

/-- The answers to specifiers that are asked without a state. -/
lemma value_askAll (answer : String → ModuleId → Answer) (importer : ModuleId)
    (specifiers : List String) :
    value (askAll (Resolver.stateless answer) importer specifiers) =
      specifiers.map fun s => answer s importer := by
  have h : ∀ s m, Settles (fun _ => True) (Resolver.stateless answer s m) (answer s m) :=
    fun _ _ => settles_pure _
  exact (settles_askAll h importer specifiers () trivial).1

/-- A computation settles on what another one comes to without a state. -/
def Mirrors {σ α : Type} (good : σ → Prop) (x : StateM σ α) (y : StateM Unit α) : Prop :=
  Settles good x (value y)

section Mirrors

variable {σ α β : Type} {good : σ → Prop}

/-- A value mirrors itself. -/
lemma mirrors_pure (a : α) : Mirrors good (pure a) (pure a) := settles_pure a

/-- Computations after each other mirror one by one. -/
lemma Mirrors.bind {x : StateM σ α} {y : StateM Unit α} {f : α → StateM σ β} {g : α → StateM Unit β}
    (hx : Mirrors good x y) (hf : ∀ a, Mirrors good (f a) (g a)) :
    Mirrors good (x >>= f) (y >>= g) :=
  Settles.bind hx (hf _)

/-- Lists of computations mirror one by one. -/
lemma mirrors_mapM {f : α → StateM σ β} {g : α → StateM Unit β} (h : ∀ a, Mirrors good (f a) (g a))
    (xs : List α) : Mirrors good (xs.mapM f) (xs.mapM g) := by
  induction xs with
  | nil => exact mirrors_pure []
  | cons x xs ih =>
    rw [List.mapM_cons, List.mapM_cons]
    exact (h x).bind fun _ => ih.bind fun _ => mirrors_pure _

/-- Folds mirror step by step. -/
lemma mirrors_foldlM {f : β → α → StateM σ β} {g : β → α → StateM Unit β}
    (h : ∀ b a, Mirrors good (f b a) (g b a)) (b : β) (xs : List α) :
    Mirrors good (xs.foldlM f b) (xs.foldlM g b) := by
  induction xs generalizing b with
  | nil => exact mirrors_pure b
  | cons x xs ih =>
    rw [List.foldlM_cons, List.foldlM_cons]
    exact (h b x).bind fun b' => ih b'

variable {resolve : Resolver σ} {answer : String → ModuleId → Answer}

/-- One question mirrors the same question without a state. -/
lemma mirrors_resolve (h : ∀ s m, Settles good (resolve s m) (answer s m)) (s : String)
    (m : ModuleId) : Mirrors good (resolve s m) (Resolver.stateless answer s m) := h s m

/-- Questions one after another mirror the same questions without a state. -/
lemma mirrors_askAll (h : ∀ s m, Settles good (resolve s m) (answer s m)) (importer : ModuleId)
    (specifiers : List String) :
    Mirrors good (askAll resolve importer specifiers)
      (askAll (Resolver.stateless answer) importer specifiers) :=
  mirrors_mapM (fun s => mirrors_resolve h s importer) specifiers

end Mirrors

end RouteAssets
