import RouteAssets.Script.Tree
import Mathlib.Data.List.Infix
import Mathlib.Tactic.Lemma

/-!
# Walks over syntax trees

* **Order** (`walk_eq_preorder`): the walk with a stack visits the subtrees in the order of the
  recursive definition.
* **Text** (`exists_tokens_eq_of_mem_placed`): the tokens of a subtree stand next to one another among
  the tokens of the tree, behind as many others as its place says (`placed`).
-/

namespace RouteAssets.Script.Tree

/-! ## Order -/

/-- The size of some siblings in front of others. -/
lemma sizeOf_append (ts us : List Tree) : sizeOf (ts ++ us) = sizeOf ts + sizeOf us := by
  induction ts with
  | nil => simp [sizeOf]
  | cons t ts ih => simp only [List.cons_append, sizeOf, ih, Nat.add_assoc]

/-- The subtrees of some siblings in front of others. -/
lemma preorderOf_append (ts us : List Tree) :
    preorderOf (ts ++ us) = preorderOf ts ++ preorderOf us := by
  induction ts with
  | nil => rfl
  | cons t ts ih => simp only [List.cons_append, preorderOf_cons, ih, List.append_assoc]

/-- A tree is one larger than its children together. -/
lemma size_eq (t : Tree) : t.size = sizeOf t.children + 1 := by
  cases t <;> rfl

/-- The subtrees of a tree are the tree and those of its children. -/
lemma preorder_eq (t : Tree) : t.preorder = t :: preorderOf t.children := by
  cases t <;> rfl

/-- With enough steps the pending trees are visited one after another, each with all below it. -/
lemma walkStack_eq_preorderOf {n : Nat} {stack : List Tree} (h : sizeOf stack ≤ n) :
    walkStack n stack = preorderOf stack := by
  induction n generalizing stack with
  | zero =>
    rcases stack with _ | ⟨t, stack⟩
    · rfl
    · rw [sizeOf, size_eq] at h
      omega
  | succ n ih =>
    rcases stack with _ | ⟨t, stack⟩
    · rfl
    · rw [sizeOf, size_eq] at h
      have hrest : sizeOf (t.children ++ stack) ≤ n := by
        rw [sizeOf_append]
        omega
      rw [walkStack_cons, ih hrest, preorderOf_append, preorderOf_cons, preorder_eq,
        List.cons_append]

/-- The walk with a stack visits every subtree once, in the recursive order. -/
lemma walk_eq_preorder (t : Tree) : t.walk = t.preorder := by
  rw [walk, walkStack_eq_preorderOf (by simp [sizeOf]), preorderOf_cons, preorderOf_nil,
    List.append_nil]

/-! ## Text -/

/-- The tokens of some siblings in front of others. -/
lemma tokensOf_append (ts us : List Tree) : tokensOf (ts ++ us) = tokensOf ts ++ tokensOf us := by
  induction ts with
  | nil => rfl
  | cons t ts ih => simp only [List.cons_append, tokensOf, ih, List.append_assoc]

mutual

/-- Every subtree with the number of tokens in front of it, in the order of `preorder`. The first
tree has `n` tokens in front of it. -/
def placed : Nat → Tree → List (Nat × Tree)
  | n, leaf u => [(n, leaf u)]
  | n, node k ts => (n, node k ts) :: placedOf n ts

/-- The subtrees of a list of siblings with the numbers of tokens in front of them. -/
def placedOf : Nat → List Tree → List (Nat × Tree)
  | _, [] => []
  | n, t :: ts => placed n t ++ placedOf (n + t.tokens.length) ts

end

mutual

/-- Without their places these are the subtrees. -/
lemma map_snd_placed (n : Nat) : (t : Tree) → (placed n t).map Prod.snd = t.preorder
  | leaf u => rfl
  | node k ts => by rw [placed, List.map_cons, map_snd_placedOf n ts, preorder_node]

/-- Without their places these are the subtrees of siblings. -/
lemma map_snd_placedOf (n : Nat) : (ts : List Tree) → (placedOf n ts).map Prod.snd = preorderOf ts
  | [] => rfl
  | t :: ts => by
    rw [placedOf, List.map_append, map_snd_placed n t, map_snd_placedOf _ ts, preorderOf_cons]

end

mutual

/-- The tokens of a subtree stand at its place among those of the tree. -/
lemma exists_tokens_eq_of_mem_placed {n : Nat} {e : Nat × Tree} : (root : Tree) →
    e ∈ placed n root →
      ∃ before after, root.tokens = before ++ e.2.tokens ++ after ∧ e.1 = n + before.length
  | leaf u, h => by
    rw [placed, List.mem_singleton] at h
    exact ⟨[], [], by simp [h], by simp [h]⟩
  | node k ts, h => by
    rw [placed] at h
    rcases List.mem_cons.1 h with rfl | h
    · exact ⟨[], [], by simp, by simp⟩
    · exact exists_tokens_eq_of_mem_placedOf ts h

/-- The tokens of a subtree stand at its place among those of siblings. -/
lemma exists_tokens_eq_of_mem_placedOf {n : Nat} {e : Nat × Tree} : (ts : List Tree) →
    e ∈ placedOf n ts →
      ∃ before after, tokensOf ts = before ++ e.2.tokens ++ after ∧ e.1 = n + before.length
  | [], h => absurd h List.not_mem_nil
  | t :: ts, h => by
    rw [placedOf] at h
    rcases List.mem_append.1 h with h | h
    · obtain ⟨before, after, htokens, hplace⟩ := exists_tokens_eq_of_mem_placed t h
      exact ⟨before, after ++ tokensOf ts, by simp [tokensOf, htokens], hplace⟩
    · obtain ⟨before, after, htokens, hplace⟩ := exists_tokens_eq_of_mem_placedOf ts h
      refine ⟨t.tokens ++ before, after, by simp [tokensOf, htokens], ?_⟩
      rw [hplace, List.length_append, Nat.add_assoc]

end

/-- The tokens of a subtree stand next to one another. -/
lemma tokens_infix_of_mem_preorder {t : Tree} (root : Tree) (h : t ∈ root.preorder) :
    t.tokens <:+: root.tokens := by
  rw [← map_snd_placed 0 root] at h
  obtain ⟨e, he, rfl⟩ := List.mem_map.1 h
  obtain ⟨before, after, htokens, -⟩ := exists_tokens_eq_of_mem_placed root he
  exact ⟨before, after, htokens.symm⟩

end RouteAssets.Script.Tree
