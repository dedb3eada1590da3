import RouteAssets.Proofs.Script.Walk
import RouteAssets.Proofs.Table
import RouteAssets.Script.Query

/-!
# What questions to a syntax tree answer with

A tree is **part** of another one when it is among the subtrees of that one (`preorder`), and so are
the parts of its parts (`mem_preorder_trans`). Looking through wrappers, and asking for the
properties of an object, the elements of an array, the arguments of a call or the values of
top-level constants, answers with parts of the tree that is asked. A part is not larger than the
whole (`size_le_of_mem_preorder`), and an element is smaller than its array.
-/

namespace RouteAssets.Script.Tree

variable {root t u v : Tree} {ts : List Tree} {name : String}

/-! ## Parts -/

/-- A tree is part of itself. -/
lemma mem_preorder_self (t : Tree) : t ∈ t.preorder := by
  rw [preorder_eq]
  exact List.mem_cons_self

/-- What is part of a sibling is part of the siblings. -/
lemma mem_preorderOf (ht : t ∈ u.preorder) (hu : u ∈ ts) : t ∈ preorderOf ts := by
  induction ts with
  | nil => cases hu
  | cons v ts ih =>
    rw [preorderOf_cons, List.mem_append]
    rcases List.mem_cons.1 hu with rfl | hu
    · exact Or.inl ht
    · exact Or.inr (ih hu)

/-- What is part of a child is part of the tree. -/
lemma mem_preorder_of_mem_children (ht : t ∈ u.preorder) (hu : u ∈ root.children) :
    t ∈ root.preorder := by
  rw [preorder_eq]
  exact List.mem_cons_of_mem root (mem_preorderOf ht hu)

mutual

/-- Parts of parts are parts. -/
lemma mem_preorder_trans (ht : t ∈ u.preorder) :
    (root : Tree) → u ∈ root.preorder → t ∈ root.preorder
  | leaf _, hu => by
    rw [preorder_leaf, List.mem_singleton] at hu
    rwa [hu] at ht
  | node k ts, hu => by
    rw [preorder_node, List.mem_cons] at hu ⊢
    rcases hu with rfl | hu
    · exact List.mem_cons.1 ht
    · exact Or.inr (mem_preorderOf_trans ht ts hu)

/-- Parts of parts of siblings are parts of the siblings. -/
lemma mem_preorderOf_trans (ht : t ∈ u.preorder) :
    (ts : List Tree) → u ∈ preorderOf ts → t ∈ preorderOf ts
  | [], hu => absurd hu List.not_mem_nil
  | v :: ts, hu => by
    rw [preorderOf_cons, List.mem_append] at hu ⊢
    rcases hu with hu | hu
    · exact Or.inl (mem_preorder_trans ht v hu)
    · exact Or.inr (mem_preorderOf_trans ht ts hu)

end

mutual

/-- A tree has as many parts as its size says. -/
lemma length_preorder : (t : Tree) → t.preorder.length = t.size
  | leaf _ => rfl
  | node k ts => by
    rw [preorder_node, List.length_cons, length_preorderOf, size_node]

/-- Siblings have as many parts as their sizes say together. -/
lemma length_preorderOf : (ts : List Tree) → (preorderOf ts).length = sizeOf ts
  | [] => rfl
  | t :: ts => by
    rw [preorderOf_cons, List.length_append, length_preorder t, length_preorderOf ts]
    rfl

end

mutual

/-- A part is not larger than the whole. -/
lemma size_le_of_mem_preorder : (u : Tree) → t ∈ u.preorder → t.size ≤ u.size
  | leaf _, ht => by
    rw [preorder_leaf, List.mem_singleton] at ht
    rw [ht]
  | node k ts, ht => by
    rw [preorder_node, List.mem_cons] at ht
    rcases ht with rfl | ht
    · exact Nat.le_refl _
    · exact Nat.le_succ_of_le (size_le_of_mem_preorderOf ts ht)

/-- A part of siblings is not larger than they are together. -/
lemma size_le_of_mem_preorderOf : (ts : List Tree) → t ∈ preorderOf ts → t.size ≤ sizeOf ts
  | [], ht => absurd ht List.not_mem_nil
  | u :: ts, ht => by
    rw [preorderOf_cons, List.mem_append] at ht
    rcases ht with ht | ht
    · exact (size_le_of_mem_preorder u ht).trans (Nat.le_add_right _ _)
    · exact (size_le_of_mem_preorderOf ts ht).trans (Nat.le_add_left _ _)

end

/-- A child is smaller than its parent. -/
lemma size_lt_of_mem_children (hu : u ∈ root.children) : u.size < root.size := by
  cases root with
  | leaf _ => cases hu
  | node k ts =>
    exact Nat.lt_succ_of_le (size_le_of_mem_preorderOf ts (mem_preorderOf (mem_preorder_self u) hu))

/-! ## Wrappers -/

mutual

/-- The expression inside some wrappers is part of them. -/
lemma unwrap_mem_preorder : (t : Tree) → t.unwrap ∈ t.preorder
  | leaf u => mem_preorder_self (leaf u)
  | node k ts => by
    unfold unwrap
    split
    · exact unwrapFirst_mem (node k ts) ts
    · exact mem_preorder_self (node k ts)

/-- The expression inside the first named sibling is part of the siblings. -/
lemma unwrapFirst_mem (whole : Tree) :
    (ts : List Tree) → unwrapFirst whole ts ∈ whole :: preorderOf ts
  | [] => List.mem_cons_self
  | t :: ts => by
    unfold unwrapFirst
    split
    · have ht := unwrap_mem_preorder t
      exact List.mem_cons_of_mem whole (List.mem_append_left _ ht)
    · rcases List.mem_cons.1 (unwrapFirst_mem whole ts) with h | h
      · rw [h]
        exact List.mem_cons_self
      · exact List.mem_cons_of_mem whole (List.mem_append_right _ h)

end

/-! ## Questions -/

/-- What a pair defines. -/
lemma property?_pair (key : Tree) (ts : List Tree) :
    (node .pair (key :: ts)).property? =
      (propertyName? key).map fun name => (name, ts.getLast?.getD key) := by
  simp only [Tree.property?, List.head?_cons, List.getLast?_cons]

/-- The value of a property is part of the item that defines it. -/
lemma mem_preorder_of_property? (h : t.property? = some (name, v)) : v ∈ t.preorder := by
  unfold property? at h
  split at h
  · rename_i ts
    split at h
    · rename_i key value hkey hvalue
      obtain ⟨name', -, hname⟩ := Option.map_eq_some_iff.1 h
      cases hname
      exact mem_preorder_of_mem_children (mem_preorder_self v) (List.mem_of_getLast? hvalue)
    · cases h
  · split at h
    · cases h
      exact mem_preorder_self _
    · cases h
  · cases h

/-- The value of a property is part of the object. -/
lemma mem_preorder_of_properties (h : t.properties.get? name = some v) : v ∈ t.preorder := by
  refine mem_preorder_trans ?_ t (unwrap_mem_preorder t)
  unfold properties at h
  split at h
  · rename_i ts hobject
    rw [Table.get?_ofList] at h
    obtain ⟨item, hitem, hproperty⟩ :=
      List.mem_filterMap.1 (List.mem_reverse.1 (Table.mem_of_lookup h))
    rw [hobject]
    exact mem_preorder_of_mem_children (mem_preorder_of_property? hproperty) hitem
  · cases h

/-- The elements of an array are parts of it. -/
lemma mem_preorder_of_elements (h : u ∈ t.elements) : u ∈ t.preorder := by
  refine mem_preorder_trans ?_ t (unwrap_mem_preorder t)
  unfold elements at h
  split at h
  · rename_i ts harray
    rw [harray]
    exact mem_preorder_of_mem_children (mem_preorder_self u) (List.mem_filter.1 h).1
  · cases h

/-- The elements of an array are smaller than it. -/
lemma size_lt_of_elements (h : u ∈ t.elements) : u.size < t.size := by
  refine Nat.lt_of_lt_of_le ?_ (size_le_of_mem_preorder t (unwrap_mem_preorder t))
  unfold elements at h
  split at h
  · rename_i ts harray
    rw [harray]
    exact size_lt_of_mem_children (List.mem_filter.1 h).1
  · cases h

/-- Without a callee there are no arguments. -/
lemma callArguments_of_callee? (h : t.callee? = none) : t.callArguments = [] := by
  unfold callArguments
  split
  · cases h
  · rfl

/-- The arguments of a call are parts of it. -/
lemma mem_preorder_of_callArguments (h : u ∈ t.callArguments) : u ∈ t.preorder := by
  unfold callArguments at h
  split at h
  · rename_i f ts
    cases hfind : ts.find? isArgumentList with
    | none =>
      rw [hfind] at h
      cases h
    | some list =>
      rw [hfind] at h
      have hlist : list ∈ (node .call (f :: ts)).children :=
        List.mem_cons_of_mem f (List.mem_of_find?_eq_some hfind)
      have hu : u ∈ list.children := (List.mem_filter.1 h).1
      exact mem_preorder_of_mem_children
        (mem_preorder_of_mem_children (mem_preorder_self u) hu) hlist
  · cases h

/-- The value that a declarator defines is part of it. -/
lemma mem_preorder_of_declaredValue? (h : t.declaredValue? = some (name, v)) : v ∈ t.preorder := by
  unfold declaredValue? at h
  split at h
  · rename_i declared ts
    split at h
    · rename_i i hfind
      split at h
      · obtain ⟨value, hlast, hvalue⟩ := Option.map_eq_some_iff.1 h
        cases hvalue
        have hi : i ∈ (node .variableDeclarator (declared :: ts)).children :=
          List.mem_cons_of_mem declared (List.mem_of_find?_eq_some hfind)
        exact mem_preorder_of_mem_children
          (mem_preorder_of_mem_children (mem_preorder_self v) (List.mem_of_getLast? hlast)) hi
      · cases h
    · cases h
  · cases h

/-- The declaration that a statement is, or exports, is part of it. -/
lemma mem_preorder_of_declaration? (h : t.declaration? = some u) : u ∈ t.preorder := by
  unfold declaration? at h
  split at h
  · exact mem_preorder_of_mem_children (mem_preorder_self u) (List.mem_of_find?_eq_some h)
  · split at h
    · cases h
      exact mem_preorder_self t
    · cases h

/-- The value of a top-level constant is part of the script. -/
lemma mem_preorder_of_constants (h : root.constants.get? name = some v) : v ∈ root.preorder := by
  unfold constants at h
  rw [Table.get?_ofList] at h
  obtain ⟨s, hs, hmem⟩ := List.mem_flatMap.1 (List.mem_reverse.1 (Table.mem_of_lookup h))
  split at hmem
  · rename_i d hd
    obtain ⟨declarator, hdeclarator, hvalue⟩ := List.mem_filterMap.1 hmem
    have hpart := mem_preorder_of_mem_children (mem_preorder_of_declaredValue? hvalue) hdeclarator
    have hstatement := mem_preorder_trans hpart s (mem_preorder_of_declaration? hd)
    exact mem_preorder_of_mem_children hstatement hs
  · cases hmem

end RouteAssets.Script.Tree
