import RouteAssets.Build.Findings
import RouteAssets.Proofs.Table

/-!
# What findings gain

Reading a module adds edges to the findings and touches nothing else. A set of edges (`Edges`) is
given by what it holds for each module; a change **adds** some edges (`Adds`) when afterwards the
findings hold what they held before and these. Changes after each other add the edges of all
(`Adds.comp`, `adds_foldl`).
-/

namespace RouteAssets

open RouteAssets.Text

/-- Edges of the three kinds, by module. -/
structure Edges where
  static : ModuleId → ModuleId → Prop
  dynamic : ModuleId → ModuleId → Prop
  usage : ModuleId → DepId → Prop

namespace Edges

/-- No edges. -/
def none : Edges := ⟨fun _ _ => False, fun _ _ => False, fun _ _ => False⟩

/-- The edges of two sets. -/
def or (e e' : Edges) : Edges :=
  ⟨fun m t => e.static m t ∨ e'.static m t, fun m t => e.dynamic m t ∨ e'.dynamic m t,
    fun m x => e.usage m x ∨ e'.usage m x⟩

/-- The edges that the items of a list contribute. -/
def ofAll {α : Type} (xs : List α) (edges : α → Edges) : Edges :=
  ⟨fun m t => ∃ x ∈ xs, (edges x).static m t, fun m t => ∃ x ∈ xs, (edges x).dynamic m t,
    fun m d => ∃ x ∈ xs, (edges x).usage m d⟩

/-- Items that contribute nothing can be left out. -/
lemma ofAll_filterMap {α β : Type} (xs : List α) (f : α → Option β) (edges : β → Edges) :
    ofAll xs (fun x => (f x).elim none edges) = ofAll (xs.filterMap f) edges := by
  have hmem : ∀ q : Edges → Prop, ¬ q none →
      ((∃ x ∈ xs, q ((f x).elim none edges)) ↔ ∃ y ∈ xs.filterMap f, q (edges y)) := by
    intro q hq
    simp only [List.mem_filterMap]
    constructor
    · rintro ⟨x, hx, h⟩
      cases hf : f x with
      | none =>
        rw [hf] at h
        exact absurd h hq
      | some y =>
        rw [hf] at h
        exact ⟨y, ⟨x, hx, hf⟩, h⟩
    · rintro ⟨y, ⟨x, hx, hf⟩, h⟩
      refine ⟨x, hx, ?_⟩
      rwa [hf]
  unfold ofAll
  congr <;> funext m t <;> apply propext
  · exact hmem (fun e => e.static m t) id
  · exact hmem (fun e => e.dynamic m t) id
  · exact hmem (fun e => e.usage m t) id

/-- The edges that items contribute in two parts. -/
lemma ofAll_or_ofAll {α : Type} (xs : List α) (edges edges' : α → Edges) :
    (ofAll xs edges).or (ofAll xs edges') = ofAll xs fun x => (edges x).or (edges' x) := by
  simp only [or, ofAll, and_or_left, exists_or]

end Edges

/-- A change of findings adds some edges and leaves all else as it was. -/
structure Adds (change : Findings → Findings) (e : Edges) : Prop where
  static_iff : ∀ f m t, t ∈ (change f).static.getD m [] ↔ t ∈ f.static.getD m [] ∨ e.static m t
  dynamic_iff : ∀ f m t, t ∈ (change f).dynamic.getD m [] ↔ t ∈ f.dynamic.getD m [] ∨ e.dynamic m t
  usage_iff : ∀ f m x, x ∈ (change f).usages.getD m [] ↔ x ∈ f.usages.getD m [] ∨ e.usage m x
  routes_eq : ∀ f, (change f).routes = f.routes
  routerImports_eq : ∀ f, (change f).routerImports = f.routerImports
  lazyModules_eq : ∀ f, (change f).lazyModules = f.lazyModules
  isClosed_eq : ∀ f, (change f).isClosed = f.isClosed

section Adds

variable {c c' : Findings → Findings} {e e' : Edges}

/-- Changing nothing adds nothing. -/
lemma adds_id : Adds id Edges.none := by
  constructor <;> simp [Edges.none]

/-- Changes after each other add the edges of both. -/
lemma Adds.comp (h : Adds c e) (h' : Adds c' e') : Adds (c' ∘ c) (e.or e') where
  static_iff f m t := by rw [Function.comp_apply, h'.static_iff, h.static_iff, Edges.or, or_assoc]
  dynamic_iff f m t := by
    rw [Function.comp_apply, h'.dynamic_iff, h.dynamic_iff, Edges.or, or_assoc]
  usage_iff f m x := by rw [Function.comp_apply, h'.usage_iff, h.usage_iff, Edges.or, or_assoc]
  routes_eq f := (h'.routes_eq _).trans (h.routes_eq f)
  routerImports_eq f := (h'.routerImports_eq _).trans (h.routerImports_eq f)
  lazyModules_eq f := (h'.lazyModules_eq _).trans (h.lazyModules_eq f)
  isClosed_eq f := (h'.isClosed_eq _).trans (h.isClosed_eq f)

/-- Edges that are the same are added alike. -/
lemma Adds.congr (h : Adds c e) (hs : ∀ m t, e.static m t ↔ e'.static m t)
    (hd : ∀ m t, e.dynamic m t ↔ e'.dynamic m t) (hu : ∀ m x, e.usage m x ↔ e'.usage m x) :
    Adds c e' :=
  { h with
    static_iff := fun f m t => by rw [h.static_iff, hs]
    dynamic_iff := fun f m t => by rw [h.dynamic_iff, hd]
    usage_iff := fun f m x => by rw [h.usage_iff, hu] }

/-- Changes for the items of a list add the edges of all items. -/
lemma adds_foldl {α : Type} {change : α → Findings → Findings} {edges : α → Edges} {xs : List α}
    (h : ∀ x ∈ xs, Adds (change x) (edges x)) :
    Adds (fun f => xs.foldl (fun f x => change x f) f) (Edges.ofAll xs edges) := by
  induction xs with
  | nil =>
    refine adds_id.congr ?_ ?_ ?_ <;> simp [Edges.ofAll, Edges.none]
  | cons x xs ih =>
    obtain ⟨hx, hxs⟩ := List.forall_mem_cons.1 h
    refine (hx.comp (ih hxs)).congr ?_ ?_ ?_ <;> simp [Edges.ofAll, Edges.or]

/-- An element of a table of lists after targets have been added at a key. -/
lemma mem_getD_insert_addAll {α : Type} [DecidableEq α] (table : Table ModuleId (List α))
    (m k : ModuleId) (xs : List α) (x : α) :
    x ∈ (table.insert m (addAll (table.getD m []) xs)).getD k [] ↔
      x ∈ table.getD k [] ∨ (m = k ∧ x ∈ xs) := by
  rw [Table.getD_insert]
  split
  · rename_i hm
    rw [mem_addAll, hm]
    simp
  · rename_i hm
    simp [hm]

/-- Adding static imports of a module. -/
def withStatic (m : ModuleId) (targets : List ModuleId) (f : Findings) : Findings :=
  { f with static := Findings.addTargets f.static m targets }

/-- Adding dynamic imports of a module. -/
def withDynamic (m : ModuleId) (targets : List ModuleId) (f : Findings) : Findings :=
  { f with dynamic := Findings.addTargets f.dynamic m targets }

/-- Adding dependencies that a module requests. -/
def withUsages (m : ModuleId) (deps : List DepId) (f : Findings) : Findings :=
  { f with usages := Usage.addTo f.usages m deps }

/-- Static imports are added to those of their module. -/
lemma adds_withStatic (m : ModuleId) (targets : List ModuleId) :
    Adds (withStatic m targets) { Edges.none with static := fun k t => m = k ∧ t ∈ targets } := by
  constructor <;> intros <;>
    simp [withStatic, Findings.addTargets, mem_getD_insert_addAll, Edges.none]

/-- Dynamic imports are added to those of their module. -/
lemma adds_withDynamic (m : ModuleId) (targets : List ModuleId) :
    Adds (withDynamic m targets) { Edges.none with dynamic := fun k t => m = k ∧ t ∈ targets } := by
  constructor <;> intros <;>
    simp [withDynamic, Findings.addTargets, mem_getD_insert_addAll, Edges.none]

/-- Requested dependencies are added to those of their module. -/
lemma adds_withUsages (m : ModuleId) (deps : List DepId) :
    Adds (withUsages m deps) { Edges.none with usage := fun k x => m = k ∧ x ∈ deps } := by
  constructor <;> intros <;> simp [withUsages, Usage.addTo, mem_getD_insert_addAll, Edges.none]

end Adds

end RouteAssets
