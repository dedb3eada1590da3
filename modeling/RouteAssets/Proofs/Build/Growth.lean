import RouteAssets.Proofs.Build.Composition
import RouteAssets.Proofs.Build.Edges

/-!
# What steps do not take away

A step **moves** builds along a relation (`Moves`) when the build after it, whether it answers or
fails, is related to the build before it. Moving is passed on from the parts of a step
(`composes_moves`, `collects_moves`).

* **Edges** (`begins_grows`): what was known before a step is still known afterwards, and findings
  that were open or closed are so afterwards.
* **Beginnings** (`collects_retains`): reading modules leaves the routes and what dependencies stand
  for as they are.
* **Questions** (`composes_leaves`): what only asks the findings leaves them as they are.
-/

namespace RouteAssets

/-- Findings that have come from others without losing an edge. -/
structure Findings.KeepsEdges (f f' : Findings) : Prop where
  static : ∀ m t, t ∈ f.static.getD m [] → t ∈ f'.static.getD m []
  dynamic : ∀ m t, t ∈ f.dynamic.getD m [] → t ∈ f'.dynamic.getD m []
  usages : ∀ m x, x ∈ f.usages.getD m [] → x ∈ f'.usages.getD m []

/-- Findings that have come from others without losing an edge, and without being closed or
opened. -/
structure Findings.Keeps (f f' : Findings) : Prop extends f.KeepsEdges f' where
  isClosed_eq : f'.isClosed = f.isClosed

/-- Edges that are known. -/
structure Edges.Within (e : Edges) (f : Findings) : Prop where
  static : ∀ m t, e.static m t → t ∈ f.static.getD m []
  dynamic : ∀ m t, e.dynamic m t → t ∈ f.dynamic.getD m []
  usage : ∀ m x, e.usage m x → x ∈ f.usages.getD m []

/-- Findings that have the same routes as others, and dependencies that stand for the same. -/
structure Findings.SameBeginning (f f' : Findings) : Prop where
  routes_eq : f'.routes = f.routes
  routerImports_eq : f'.routerImports = f.routerImports
  lazyModules_eq : f'.lazyModules = f.lazyModules

section Relations

variable {f f' f'' : Findings} {c : Findings → Findings} {e : Edges}

/-- Findings that have the same edges keep them. -/
lemma Findings.KeepsEdges.of_eq (hs : f'.static = f.static) (hd : f'.dynamic = f.dynamic)
    (hu : f'.usages = f.usages) : f.KeepsEdges f' where
  static _ _ ht := hs ▸ ht
  dynamic _ _ ht := hd ▸ ht
  usages _ _ hx := hu ▸ hx

/-- Edges that are kept twice are kept. -/
lemma Findings.KeepsEdges.trans (h : f.KeepsEdges f') (h' : f'.KeepsEdges f'') :
    f.KeepsEdges f'' where
  static m t ht := h'.static m t (h.static m t ht)
  dynamic m t ht := h'.dynamic m t (h.dynamic m t ht)
  usages m x hx := h'.usages m x (h.usages m x hx)

/-- Findings keep what they have. -/
lemma Findings.Keeps.refl (f : Findings) : f.Keeps f := ⟨.of_eq rfl rfl rfl, rfl⟩

/-- What is kept twice is kept. -/
lemma Findings.Keeps.trans (h : f.Keeps f') (h' : f'.Keeps f'') : f.Keeps f'' :=
  ⟨h.toKeepsEdges.trans h'.toKeepsEdges, h'.isClosed_eq.trans h.isClosed_eq⟩

/-- Adding edges keeps those that were there. -/
lemma Adds.keeps (h : Adds c e) (f : Findings) : f.Keeps (c f) where
  static m t ht := (h.static_iff f m t).2 (Or.inl ht)
  dynamic m t ht := (h.dynamic_iff f m t).2 (Or.inl ht)
  usages m x hx := (h.usage_iff f m x).2 (Or.inl hx)
  isClosed_eq := h.isClosed_eq f

/-- Edges that are added are known afterwards. -/
lemma Adds.within (h : Adds c e) (f : Findings) : e.Within (c f) where
  static m t ht := (h.static_iff f m t).2 (Or.inr ht)
  dynamic m t ht := (h.dynamic_iff f m t).2 (Or.inr ht)
  usage m x hx := (h.usage_iff f m x).2 (Or.inr hx)

/-- Findings have the same beginning as themselves. -/
lemma Findings.SameBeginning.refl (f : Findings) : f.SameBeginning f := ⟨rfl, rfl, rfl⟩

/-- Beginnings are the same along several changes. -/
lemma Findings.SameBeginning.trans (h : f.SameBeginning f') (h' : f'.SameBeginning f'') :
    f.SameBeginning f'' where
  routes_eq := h'.routes_eq.trans h.routes_eq
  routerImports_eq := h'.routerImports_eq.trans h.routerImports_eq
  lazyModules_eq := h'.lazyModules_eq.trans h.lazyModules_eq

/-- Adding edges leaves the beginning as it is. -/
lemma Adds.sameBeginning (h : Adds c e) (f : Findings) : f.SameBeginning (c f) :=
  ⟨h.routes_eq f, h.routerImports_eq f, h.lazyModules_eq f⟩

end Relations

namespace Build

/-- A step that takes builds along a relation, whether it answers or fails. -/
def Moves (R : Build → Build → Prop) (α : Type) (step : BuildStep α) : Prop :=
  ∀ b, R b (outcome step b).2

/-- Moving along a relation is passed on, if the relation goes along several changes and does not
look at what is remembered and what is to be said. -/
lemma composes_moves {R : Build → Build → Prop}
    (hsame : ∀ b b', b'.findings = b.findings → b'.isDirty = b.isDirty → R b b')
    (htrans : ∀ b b' b'', R b b' → R b' b'' → R b b'') : Composes (Moves R) where
  on_pure _ _ := hsame _ _ rfl rfl
  on_throw _ _ := hsame _ _ rfl rfl
  on_bind {_ _ step next} h hnext b := by
    have hstep := h b
    rw [outcome_bind]
    rcases hresult : outcome step b with ⟨e | a, b₁⟩
    · rw [hresult] at hstep
      exact hstep
    · rw [hresult] at hstep
      exact htrans _ _ _ hstep (hnext a b₁)
  on_attempt h b := by
    rw [outcome_attempt]
    exact h b
  on_tell _ _ := hsame _ _ rfl rfl
  on_look _ _ := hsame _ _ rfl rfl
  on_findings _ h b := by
    rw [outcome_bind_ok (outcome_get b)]
    exact h b b

/-- The mark of the route map and the findings stay as they are where findings are only asked. -/
lemma composes_leaves :
    Composes (Moves fun b b' => b'.findings = b.findings ∧ b'.isDirty = b.isDirty) :=
  composes_moves (fun _ _ hfindings hdirty => ⟨hfindings, hdirty⟩)
    fun _ _ _ h h' => ⟨h'.1.trans h.1, h'.2.trans h.2⟩

/-- Generating the route map leaves the findings as they are. -/
lemma findings_of_generate {o : Options} {cs : List (Chunk Json)} {files : RouteMap} {b b' : Build}
    (h : outcome (generate o cs) b = (.ok files, b')) : b'.findings = b.findings := by
  have hleaves := (composes_leaves.generate o cs b).1
  rwa [h] at hleaves

section Findings

variable {R : Findings → Findings → Prop}

/-- A change moves the findings along a relation if it does so where it is not refused. -/
lemma moves_record (hrefl : ∀ f, R f f) {change : Findings → Findings}
    (h : ∀ f, R f (change f)) :
    Moves (InvImage R Build.findings) _ (record fun f => f.change change) := by
  intro b
  cases hclosed : b.findings.isClosed with
  | true =>
    have herror : b.findings.change change = .error {} := by
      rw [Findings.change, hclosed]
      rfl
    rw [outcome_record_error b herror]
    exact hrefl _
  | false =>
    have hok : b.findings.change change = .ok (change b.findings) := by
      rw [Findings.change, hclosed]
      rfl
    rw [outcome_record_ok b hok]
    exact h _

/-- Where a relation of findings holds along the changes that add edges, reading modules moves along
it. -/
lemma collects_moves (hrefl : ∀ f, R f f)
    (htrans : ∀ f f' f'', R f f' → R f' f'' → R f f'')
    (hadds : ∀ c e, Adds c e → ∀ f, R f (c f)) :
    Collects (Moves (InvImage R Build.findings)) where
  toComposes := by
    apply composes_moves
    · intro b b' hfindings _
      rw [InvImage, hfindings]
      exact hrefl _
    · intro b b' b'' h h'
      exact htrans _ _ _ h h'
  on_addStatic m targets := moves_record hrefl (hadds _ _ (adds_withStatic m targets))
  on_addDynamic m targets := moves_record hrefl (hadds _ _ (adds_withDynamic m targets))
  on_addUsages m deps := moves_record hrefl (hadds _ _ (adds_withUsages m deps))

end Findings

/-- No step takes an edge away. -/
lemma begins_grows : Begins (Moves (InvImage Findings.Keeps Build.findings)) where
  toCollects := collects_moves .refl (fun _ _ _ => .trans) fun _ _ h => h.keeps
  on_setRoutes _ _ := moves_record .refl fun _ => ⟨.of_eq rfl rfl rfl, rfl⟩
  on_setLazyModules _ := moves_record .refl fun _ => ⟨.of_eq rfl rfl rfl, rfl⟩

/-- Reading modules leaves the routes and what dependencies stand for as they are. -/
lemma collects_retains : Collects (Moves (InvImage Findings.SameBeginning Build.findings)) :=
  collects_moves .refl (fun _ _ _ => .trans) fun _ _ h => h.sameBeginning

end Build

end RouteAssets
