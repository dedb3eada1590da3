import RouteAssets.Proofs.Script.Walk

/-!
# Positions in syntax trees

A subtree may occur in a tree more than once. What occurs once is its position: the numbers of the
children on the way from the root (`at?`). Positions are ordered as words are, so that a tree comes
before what is in it, and siblings come from left to right.

* **All positions** (`mem_positions_iff`, `pairwise_positions`): those of a tree are listed each
  once and in order (`Enumerates`).
* **Walks** (`map_at?_positions`): the walk visits what is at these positions, one after another.
* **Searches** (`find?_eq_some_iff`, `find?_eq_none_iff`): what a walk finds is the tree at the first
  position that passes the test.
-/

namespace RouteAssets.Script.Tree

/-- The subtree at a position, if the position is in the tree. -/
def at? (t : Tree) : List Nat → Option Tree
  | [] => some t
  | i :: p => t.children[i]?.bind fun u => at? u p

mutual

/-- The positions in a tree, in the order of `preorder`. -/
def positions : Tree → List (List Nat)
  | leaf _ => [[]]
  | node _ ts => [] :: positionsFrom 0 ts

/-- The positions in siblings, the first of which is child number `i`. -/
def positionsFrom : Nat → List Tree → List (List Nat)
  | _, [] => []
  | i, t :: ts => t.positions.map (i :: ·) ++ positionsFrom (i + 1) ts

end

/-- Some positions are those in a tree, each once and in order. -/
structure Enumerates (t : Tree) (ps : List (List Nat)) : Prop where
  mem_iff : ∀ p, p ∈ ps ↔ (t.at? p).isSome = true
  ascending : ps.Pairwise (· < ·)

/-- A tree is at the first position of another tree where a test holds. -/
def IsFirstWith (test : Tree → Bool) (root t : Tree) : Prop :=
  ∃ p, root.at? p = some t ∧ test t = true ∧
    ∀ q u, q < p → root.at? q = some u → test u = false

variable {t root : Tree} {ts : List Tree} {p : List Nat} {i : Nat} {test : Tree → Bool}

/-! ## All positions -/

/-- At the root is the tree. -/
@[simp] lemma at?_nil (t : Tree) : t.at? [] = some t := rfl

/-- Behind the number of a child is what is in this child. -/
@[simp] lemma at?_cons (t : Tree) (i : Nat) (p : List Nat) :
    t.at? (i :: p) = t.children[i]?.bind fun u => u.at? p := rfl

/-- The positions in a tree are the root and those in its children. -/
lemma positions_eq (t : Tree) : t.positions = [] :: positionsFrom 0 t.children := by
  cases t <;> rfl

mutual

/-- At the positions in a tree are its subtrees, in order. -/
lemma map_at?_positions : (t : Tree) → t.positions.map t.at? = t.preorder.map some
  | leaf u => rfl
  | node k ts => by
    rw [positions, List.map_cons, at?_nil, preorder_node, List.map_cons]
    exact congrArg _ (map_at?_positionsFrom (node k ts) 0 ts fun j => by simp [children])

/-- At the positions in children that stand next to one another are their subtrees. -/
lemma map_at?_positionsFrom (root : Tree) (i : Nat) :
    (ts : List Tree) → (∀ j, (h : j < ts.length) → root.children[i + j]? = some ts[j]) →
      (positionsFrom i ts).map root.at? = (preorderOf ts).map some
  | [], _ => rfl
  | t :: ts, hchildren => by
    have hfirst : root.children[i]? = some t := hchildren 0 (Nat.succ_pos _)
    have hpositions : (t.positions.map (i :: ·)).map root.at? = t.preorder.map some := by
      rw [List.map_map, ← map_at?_positions t]
      exact List.map_congr_left fun p _ => by simp [hfirst]
    have hrest : ∀ j, (h : j < ts.length) → root.children[i + 1 + j]? = some ts[j] := by
      intro j h
      rw [Nat.add_assoc, Nat.add_comm 1 j]
      exact hchildren (j + 1) (Nat.succ_lt_succ h)
    rw [positionsFrom, List.map_append, hpositions, map_at?_positionsFrom root (i + 1) ts hrest,
      preorderOf_cons, List.map_append]

end

/-- What is listed of siblings are the positions in each of them, behind its number. -/
lemma mem_positionsFrom_iff :
    p ∈ positionsFrom i ts ↔
      ∃ j q t, p = (i + j) :: q ∧ ts[j]? = some t ∧ q ∈ t.positions := by
  induction ts generalizing i with
  | nil => simp [positionsFrom]
  | cons t ts ih =>
    rw [positionsFrom, List.mem_append, List.mem_map, ih]
    constructor
    · rintro (⟨q, hq, rfl⟩ | ⟨j, q, u, rfl, hu, hq⟩)
      · exact ⟨0, q, t, rfl, rfl, hq⟩
      · exact ⟨j + 1, q, u, by rw [Nat.add_assoc, Nat.add_comm 1 j], hu, hq⟩
    · rintro ⟨_ | j, q, u, rfl, hu, hq⟩
      · obtain rfl : t = u := Option.some.inj hu
        exact Or.inl ⟨q, hq, rfl⟩
      · exact Or.inr ⟨j, q, u, by rw [Nat.add_assoc, Nat.add_comm 1 j], hu, hq⟩

/-- The positions in a tree are those where something is. -/
lemma mem_positions_iff (t : Tree) (p : List Nat) : p ∈ t.positions ↔ (t.at? p).isSome = true := by
  induction p generalizing t with
  | nil => simp [positions_eq]
  | cons i p ih =>
    rw [positions_eq, List.mem_cons, mem_positionsFrom_iff, at?_cons]
    cases hchild : t.children[i]? with
    | none => simp +contextual [hchild]
    | some u => simp [hchild, ih u]

mutual

/-- The positions in a tree are listed in order. -/
lemma pairwise_positions : (t : Tree) → t.positions.Pairwise (· < ·)
  | leaf u => List.pairwise_singleton _ _
  | node k ts => by
    rw [positions, List.pairwise_cons]
    refine ⟨fun p hp => ?_, pairwise_positionsFrom 0 ts⟩
    obtain ⟨j, q, u, rfl, -, -⟩ := mem_positionsFrom_iff.1 hp
    exact List.nil_lt_cons _ _

/-- The positions in siblings are listed in order. -/
lemma pairwise_positionsFrom (i : Nat) : (ts : List Tree) → (positionsFrom i ts).Pairwise (· < ·)
  | [] => List.Pairwise.nil
  | t :: ts => by
    rw [positionsFrom, List.pairwise_append]
    refine ⟨?_, pairwise_positionsFrom (i + 1) ts, ?_⟩
    · rw [List.pairwise_map]
      exact (pairwise_positions t).imp fun h => List.cons_lt_cons_iff.2 (Or.inr ⟨rfl, h⟩)
    · intro p hp q hq
      obtain ⟨p', -, rfl⟩ := List.mem_map.1 hp
      obtain ⟨j, q', u, rfl, -, -⟩ := mem_positionsFrom_iff.1 hq
      exact List.cons_lt_cons_iff.2 (Or.inl (by omega))

end

/-- The positions in a tree are enumerated. -/
lemma enumerates_positions (t : Tree) : t.Enumerates t.positions :=
  ⟨t.mem_positions_iff, pairwise_positions t⟩

/-! ## Walks and searches -/

/-- The walk visits what is at the positions in a tree, in order. -/
lemma map_some_walk (t : Tree) : t.walk.map some = t.positions.map t.at? := by
  rw [walk_eq_preorder, map_at?_positions]

/-- What is looked for in all subtrees is found at the positions in the tree, in order. -/
lemma filterMap_walk {α : Type} (search : Tree → Option α) (t : Tree) :
    t.walk.filterMap search = t.positions.filterMap fun p => (t.at? p).bind search := by
  calc t.walk.filterMap search
      = (t.walk.map some).filterMap fun u => u.bind search := by
        rw [List.filterMap_map]
        rfl
    _ = t.positions.filterMap fun p => (t.at? p).bind search := by
        rw [map_some_walk, List.filterMap_map]
        rfl

/-- Nothing is found exactly if no subtree passes the test. -/
lemma find?_eq_none_iff :
    root.find? test = none ↔ ∀ p t, root.at? p = some t → test t = false := by
  rw [find?, List.find?_eq_none]
  constructor
  · intro h p t hp
    have hmem : some t ∈ root.walk.map some := by
      rw [map_some_walk]
      exact List.mem_map.2 ⟨p, (root.mem_positions_iff p).2 (by simp [hp]), hp⟩
    simpa using h t (by simpa using hmem)
  · intro h t ht
    have hmem : some t ∈ root.positions.map root.at? := by
      rw [← map_some_walk]
      exact List.mem_map_of_mem ht
    obtain ⟨p, -, hp⟩ := List.mem_map.1 hmem
    simp [h p t hp]

/-- A search through positions that are listed in order ends at the first one that passes. -/
lemma Enumerates.find?_eq_some_iff {ps : List (List Nat)} (h : root.Enumerates ps)
    {passes : List Nat → Bool} :
    ps.find? passes = some p ↔ p ∈ ps ∧ passes p = true ∧ ∀ q ∈ ps, q < p → passes q = false := by
  rw [List.find?_eq_some_iff_append]
  constructor
  · rintro ⟨hp, before, after, rfl, hbefore⟩
    refine ⟨by simp, hp, fun q hq hlt => ?_⟩
    obtain ⟨-, hafter, -⟩ := List.pairwise_append.1 h.ascending
    rcases List.mem_append.1 hq with hq | hq
    · simpa using hbefore q hq
    · rcases List.mem_cons.1 hq with rfl | hq
      · exact absurd hlt (List.lt_irrefl q)
      · exact absurd hlt (List.lt_asymm ((List.pairwise_cons.1 hafter).1 q hq))
  · rintro ⟨hmem, hp, hbefore⟩
    obtain ⟨before, after, rfl⟩ := List.append_of_mem hmem
    obtain ⟨-, -, hlt⟩ := List.pairwise_append.1 h.ascending
    refine ⟨hp, before, after, rfl, fun q hq => ?_⟩
    simpa using hbefore q (List.mem_append_left _ hq) (hlt q hq p List.mem_cons_self)

/-- What is found is the tree at the first position that passes the test. -/
lemma find?_eq_some_iff : root.find? test = some t ↔ IsFirstWith test root t := by
  have hsearch : (root.find? test).map some =
      (root.positions.find? fun p => (root.at? p).any test).map root.at? := by
    calc (root.find? test).map some
        = (root.walk.map some).find? fun u => u.any test := by
          rw [List.find?_map]
          rfl
      _ = (root.positions.find? fun p => (root.at? p).any test).map root.at? := by
          rw [map_some_walk, List.find?_map]
          rfl
  rw [← Option.map_inj_right (fun _ _ => Option.some.inj), Option.map_some, hsearch,
    Option.map_eq_some_iff]
  simp only [root.enumerates_positions.find?_eq_some_iff, mem_positions_iff]
  constructor
  · rintro ⟨p, ⟨-, htest, hfirst⟩, hp⟩
    refine ⟨p, hp, by simpa [hp] using htest, fun q u hlt hq => ?_⟩
    simpa [hq] using hfirst q (by simp [hq]) hlt
  · rintro ⟨p, hp, htest, hfirst⟩
    refine ⟨p, ⟨by simp [hp], by simpa [hp] using htest, fun q hq hlt => ?_⟩, hp⟩
    obtain ⟨u, hu⟩ := Option.isSome_iff_exists.1 hq
    simpa [hu] using hfirst q u hlt hu

end RouteAssets.Script.Tree
