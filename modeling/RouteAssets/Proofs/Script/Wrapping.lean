import RouteAssets.Proofs.Script.Query
import Mathlib.Data.List.Forall2

/-!
# Wrapped expressions

Parentheses, `as`, `satisfies` and a postfix `!` do not change what an expression is. A tree is
**wrapped** into another one (`wraps`) when it becomes this one by putting expressions into any number
of them, wherever wrappers are looked through: callees and arguments of calls, elements of arrays,
values of properties and initializers, and what is wrapped already. Gaps may change everywhere, since
comments stand in them. Of the types that come with the wrappers a test decides which are fit.

Related trees answer every question alike, up to wrappers in the answer. There is one lemma for each
question:

* **Unwrapping** (`same_unwrap`): wrapped trees are the same after their wrappers are removed.
* **Questions** (`Wrapped.stringValue?_eq`, `Wrapped.properties`, `Wrapped.elements`,
  `Same.callArguments`, `Same.constants`).
* **Walks** (`forall₂_filterMap_preorder`): what is looked for in all subtrees is found as often and
  in the same order, if it is found neither in a wrapper itself nor in a type that is fit.
-/

namespace RouteAssets.Script.Tree

/-- Two options are both empty or hold related values. -/
lemma exists_of_rel {α β : Type} {R : α → β → Prop} {a : Option α} {b : Option β}
    (h : Option.Rel R a b) : a = none ∧ b = none ∨ ∃ x y, a = some x ∧ b = some y ∧ R x y := by
  cases h with
  | none => exact Or.inl ⟨rfl, rfl⟩
  | some h => exact Or.inr ⟨_, _, rfl, rfl, h⟩

/-! ## Wrapping -/

/-- Marks the last of some trees. -/
def markLast : List Tree → List (Bool × Tree)
  | [] => []
  | [t] => [(true, t)]
  | t :: ts => (false, t) :: markLast ts

/-- Marks the first of some trees that is named. -/
def markFirstNamed : List Tree → List (Bool × Tree)
  | [] => []
  | t :: ts =>
    if t.isNamed then (true, t) :: ts.map (false, ·) else (false, t) :: markFirstNamed ts

/-- The children of a node. Those are marked that are expressions in a place where wrappers are looked
through. -/
def marked : NodeKind → List Tree → List (Bool × Tree)
  | .call, f :: ts => (!f.isToken .importWord, f) :: ts.map (false, ·)
  | .arguments, ts => ts.map fun t => (t.isNamed, t)
  | .array, ts => ts.map fun t => (t.isNamed, t)
  | .pair, key :: ts => (false, key) :: markLast ts
  | .initializer, ts => markLast ts
  | k, ts => if k.isTransparent then markFirstNamed ts else ts.map (false, ·)

/-- A template without substitutions keeps its text. -/
def keepsText (k : NodeKind) (ts ts' : List Tree) : Bool :=
  k != .template || ts.any (isNode .templateSubstitution) || (node k ts).text == (node k ts').text

mutual

/-- Is the second tree the first one with expressions in wrappers? If it is marked, the first one may
be in wrappers itself. What stands in a wrapper behind the expression has to pass the test. -/
def wraps (operand : Tree → Bool) (mark : Bool) (t : Tree) : Tree → Bool
  | leaf u' =>
    match t with
    | leaf u => u.kind == u'.kind && u.text == u'.text
    | node _ _ => false
  | node k' ts' =>
    (match t with
      | leaf _ => false
      | node k ts => k == k' && keepsText k ts ts' && wrapsAll operand (marked k ts) ts') ||
    (mark && t.isNamed && k'.isTransparent && wrapsFirst operand t ts')

/-- Is the first named tree of a list the given one in wrappers? -/
def wrapsFirst (operand : Tree → Bool) (t : Tree) : List Tree → Bool
  | [] => false
  | t' :: ts' =>
    if t'.isNamed then wraps operand true t t' && ts'.all operand else wrapsFirst operand t ts'

/-- Are some trees the given ones with expressions in wrappers, one by one? -/
def wrapsAll (operand : Tree → Bool) : List (Bool × Tree) → List Tree → Bool
  | [], [] => true
  | m :: ms, t' :: ts' => wraps operand m.1 m.2 t' && wrapsAll operand ms ts'
  | _, _ => false

end

/-- The same tree, up to what is in wrappers further inside. -/
def Same (operand : Tree → Bool) (t t' : Tree) : Prop := wraps operand false t t' = true

/-- The same tree in any number of wrappers, up to what is in wrappers further inside. -/
def Wrapped (operand : Tree → Bool) (t t' : Tree) : Prop := wraps operand true t t' = true

variable {operand : Tree → Bool} {mark : Bool} {k : NodeKind} {t t' : Tree} {ts ts' : List Tree}
  {ms : List (Bool × Tree)} {u : Token}

/-- Marking leaves the trees alone. -/
lemma map_snd_markLast (ts : List Tree) : (markLast ts).map Prod.snd = ts := by
  induction ts using markLast.induct with
  | case1 => rfl
  | case2 t => rfl
  | case3 t ts h ih => rw [markLast, List.map_cons, ih]; exact h

/-- Marking leaves the trees alone. -/
lemma map_snd_markFirstNamed (ts : List Tree) : (markFirstNamed ts).map Prod.snd = ts := by
  induction ts with
  | nil => rfl
  | cons t ts ih =>
    rw [markFirstNamed]
    split
    · simp [Function.comp_def]
    · rw [List.map_cons, ih]

/-- Marking leaves the children of a node alone. -/
lemma map_snd_marked (k : NodeKind) (ts : List Tree) : (marked k ts).map Prod.snd = ts := by
  unfold marked
  split
  · simp [Function.comp_def]
  · simp [Function.comp_def]
  · simp [Function.comp_def]
  · simp [map_snd_markLast]
  · exact map_snd_markLast ts
  · split
    · exact map_snd_markFirstNamed ts
    · simp [Function.comp_def]

/-- Trees are wrapped one by one. -/
lemma wrapsAll_iff : wrapsAll operand ms ts' = true ↔
    List.Forall₂ (fun m t' => wraps operand m.1 m.2 t' = true) ms ts' := by
  induction ms generalizing ts' with
  | nil => cases ts' <;> simp [wrapsAll]
  | cons m ms ih => cases ts' <;> simp [wrapsAll, ih]

/-- What is the same as a token. -/
lemma same_leaf_iff :
    Same operand (leaf u) t' ↔ ∃ u', t' = leaf u' ∧ u'.kind = u.kind ∧ u'.text = u.text := by
  cases t' with
  | leaf u' =>
    simp only [Same, wraps, Bool.and_eq_true, beq_iff_eq, leaf.injEq, exists_eq_left']
    exact and_congr eq_comm eq_comm
  | node k' ts' => simp [Same, wraps]

/-- What is the same as a node. -/
lemma same_node_iff : Same operand (node k ts) t' ↔ ∃ ts', t' = node k ts' ∧
    keepsText k ts ts' = true ∧
    List.Forall₂ (fun m t' => wraps operand m.1 m.2 t' = true) (marked k ts) ts' := by
  cases t' with
  | leaf u' => simp [Same, wraps]
  | node k' ts' =>
    simp only [Same, wraps, Bool.false_and, Bool.or_false, Bool.and_eq_true, beq_iff_eq,
      wrapsAll_iff, node.injEq]
    constructor
    · rintro ⟨⟨rfl, htext⟩, hall⟩
      exact ⟨ts', ⟨rfl, rfl⟩, htext, hall⟩
    · rintro ⟨ts'', ⟨rfl, rfl⟩, htext, hall⟩
      exact ⟨⟨rfl, htext⟩, hall⟩

/-- A tree is wrapped when it is the same, or, if it is marked, when it is the first named tree in a
wrapper. -/
lemma wraps_iff : wraps operand mark t t' = true ↔ Same operand t t' ∨
    ∃ k' ts', t' = node k' ts' ∧ mark = true ∧ t.isNamed = true ∧ k'.isTransparent = true ∧
      wrapsFirst operand t ts' = true := by
  cases t' with
  | leaf u' => simp [Same, wraps]
  | node k' ts' =>
    simp only [Same, wraps, Bool.or_eq_true, Bool.and_eq_true, Bool.false_and, Bool.or_false,
      node.injEq]
    refine or_congr_right ⟨?_, ?_⟩
    · rintro ⟨⟨⟨hmark, hnamed⟩, hk⟩, hfirst⟩
      exact ⟨k', ts', ⟨rfl, rfl⟩, hmark, hnamed, hk, hfirst⟩
    · rintro ⟨_, _, ⟨rfl, rfl⟩, hmark, hnamed, hk, hfirst⟩
      exact ⟨⟨⟨hmark, hnamed⟩, hk⟩, hfirst⟩

/-- What is in wrappers or may not be is in any number of wrappers. -/
lemma wrapped_of_wraps (h : wraps operand mark t t' = true) : Wrapped operand t t' := by
  refine wraps_iff.2 ((wraps_iff.1 h).imp_right ?_)
  rintro ⟨k', ts', ht', -, hnamed, hk, hfirst⟩
  exact ⟨k', ts', ht', rfl, hnamed, hk, hfirst⟩

/-- The same tree is in no wrappers. -/
lemma Same.wrapped (h : Same operand t t') : Wrapped operand t t' := wrapped_of_wraps h

/-- Wrapping keeps what is named. -/
lemma isNamed_of_wraps (h : wraps operand mark t t' = true) : t'.isNamed = t.isNamed := by
  rcases wraps_iff.1 h with h | ⟨k', ts', rfl, -, hnamed, -, -⟩
  · cases t with
    | leaf u =>
      obtain ⟨u', rfl, hkind, -⟩ := same_leaf_iff.1 h
      rw [isNamed, isNamed, hkind]
    | node k ts =>
      obtain ⟨ts', rfl, -, -⟩ := same_node_iff.1 h
      rfl
  · exact hnamed.symm

/-! ## Unwrapping -/

/-- Without wrappers the first named trees are the same, if all are one by one. -/
lemma same_unwrapFirst {whole whole' : Tree} (hwhole : Same operand whole whole')
    (h : List.Forall₂ (fun m t' => wraps operand m.1 m.2 t' = true ∧
      Same operand m.2.unwrap t'.unwrap) ms ts') :
    Same operand (unwrapFirst whole (ms.map Prod.snd)) (unwrapFirst whole' ts') := by
  induction h with
  | nil => exact hwhole
  | cons hfirst _ ih =>
    rw [List.map_cons, unwrapFirst, unwrapFirst, isNamed_of_wraps hfirst.1]
    split
    · exact hfirst.2
    · exact ih

mutual

/-- Wrapped trees are the same after their wrappers are removed. -/
lemma same_unwrap (mark : Bool) (t : Tree) :
    (t' : Tree) → wraps operand mark t t' = true → Same operand t.unwrap t'.unwrap
  | leaf u', h => by
    obtain h | ⟨k', ts', ht', -⟩ := wraps_iff.1 h
    · cases t with
      | leaf u => exact h
      | node k ts =>
        obtain ⟨ts', hts', -⟩ := same_node_iff.1 h
        cases hts'
    · cases ht'
  | node k' ts', h => by
    rcases wraps_iff.1 h with h | ⟨_, _, ⟨rfl, rfl⟩, -, -, hk, hfirst⟩
    · cases t with
      | leaf u =>
        obtain ⟨u', hu', -⟩ := same_leaf_iff.1 h
        cases hu'
      | node k ts =>
        obtain ⟨_, hts', -, hall⟩ := same_node_iff.1 h
        cases hts'
        rw [unwrap, unwrap]
        split
        · have hfirst := same_unwrapFirst h (same_unwrapAll (marked k' ts) ts' hall)
          rwa [map_snd_marked] at hfirst
        · exact h
    · rw [unwrap, if_pos hk]
      exact same_unwrapFirst_of_wrapsFirst t (node k' ts') ts' hfirst

/-- A tree is the same as the first named tree in a wrapper after wrappers are removed. -/
lemma same_unwrapFirst_of_wrapsFirst (t whole : Tree) :
    (ts' : List Tree) → wrapsFirst operand t ts' = true →
      Same operand t.unwrap (unwrapFirst whole ts')
  | [], h => by cases h
  | t' :: ts', h => by
    rw [wrapsFirst] at h
    rw [unwrapFirst]
    split at h
    · rename_i hnamed
      rw [if_pos hnamed]
      exact same_unwrap true t t' (Bool.and_eq_true _ _ ▸ h).1
    · rename_i hnamed
      rw [if_neg hnamed]
      exact same_unwrapFirst_of_wrapsFirst t whole ts' h

/-- Trees that are wrapped one by one are the same after their wrappers are removed. -/
lemma same_unwrapAll : (ms : List (Bool × Tree)) → (ts' : List Tree) →
    List.Forall₂ (fun m t' => wraps operand m.1 m.2 t' = true) ms ts' →
    List.Forall₂ (fun m t' => wraps operand m.1 m.2 t' = true ∧
      Same operand m.2.unwrap t'.unwrap) ms ts'
  | [], [], _ => .nil
  | m :: ms, t' :: ts', h => by
    obtain ⟨hfirst, hrest⟩ := List.forall₂_cons.1 h
    exact .cons ⟨hfirst, same_unwrap m.1 m.2 t' hfirst⟩ (same_unwrapAll ms ts' hrest)

end

/-- Wrapped trees are the same after their wrappers are removed. -/
lemma Wrapped.unwrap (h : Wrapped operand t t') : Same operand t.unwrap t'.unwrap :=
  same_unwrap true t t' h

/-! ## Tokens and nodes -/

/-- The same node is of the same kind. -/
lemma Same.isNode_eq (h : Same operand t t') (k : NodeKind) : t'.isNode k = t.isNode k := by
  cases t with
  | leaf u =>
    obtain ⟨u', rfl, -⟩ := same_leaf_iff.1 h
    rfl
  | node k ts =>
    obtain ⟨ts', rfl, -⟩ := same_node_iff.1 h
    rfl

/-- The same token is of the same kind. -/
lemma Same.isToken_eq (h : Same operand t t') (k : TokenKind) : t'.isToken k = t.isToken k := by
  cases t with
  | leaf u =>
    obtain ⟨u', rfl, hkind, -⟩ := same_leaf_iff.1 h
    rw [isToken, isToken, hkind]
  | node k ts =>
    obtain ⟨ts', rfl, -⟩ := same_node_iff.1 h
    rfl

/-- The same token has the same text. -/
lemma Same.text_eq {k : TokenKind} (h : Same operand t t') (ht : t.isToken k = true) :
    t'.text = t.text := by
  cases t with
  | leaf u =>
    obtain ⟨u', rfl, -, htext⟩ := same_leaf_iff.1 h
    simp [text, tokens, textOfTokens, htext]
  | node k ts => cases ht

/-- In nodes of most kinds no child is in wrappers. -/
lemma same_children (hk : marked k ts = ts.map (false, ·)) (h : Same operand (node k ts) t') :
    ∃ ts', t' = node k ts' ∧ keepsText k ts ts' = true ∧ List.Forall₂ (Same operand) ts ts' := by
  obtain ⟨ts', rfl, htext, hall⟩ := same_node_iff.1 h
  rw [hk, List.forall₂_map_left_iff] at hall
  exact ⟨ts', rfl, htext, hall⟩

/-- The last of some trees is in wrappers, if all are wrapped but only the last one is marked. -/
lemma getLast?_of_markLast
    (h : List.Forall₂ (fun m t' => wraps operand m.1 m.2 t' = true) (markLast ts) ts') :
    Option.Rel (Wrapped operand) ts.getLast? ts'.getLast? := by
  induction ts using markLast.induct generalizing ts' with
  | case1 =>
    cases h
    exact .none
  | case2 t =>
    obtain ⟨t', rest, ht, hrest, rfl⟩ := List.forall₂_cons_left_iff.1 h
    cases hrest
    exact .some ht
  | case3 t ts hne ih =>
    rw [markLast.eq_3 t ts hne, List.forall₂_cons_left_iff] at h
    obtain ⟨t', rest, ht, hrest, rfl⟩ := h
    have hlast := ih hrest
    cases ts with
    | nil => exact absurd rfl hne
    | cons u ts =>
      cases rest with
      | nil =>
        have hlength := hrest.length_eq
        rw [← List.length_map (f := Prod.snd), map_snd_markLast] at hlength
        cases hlength
      | cons u' rest => exact hlast

/-- Where some trees are wrapped one by one, so are the named ones among them. -/
lemma forall₂_filter_isNamed (h : List.Forall₂ (Wrapped operand) ts ts') :
    List.Forall₂ (Wrapped operand) (ts.filter isNamed) (ts'.filter isNamed) := by
  have hnamed : ∀ {t t'}, Wrapped operand t t' → (t.isNamed = true ↔ t'.isNamed = true) := by
    intro t t' ht
    rw [isNamed_of_wraps ht]
  exact List.rel_filter (p := isNamed) (q := isNamed) (fun _ _ ht => hnamed ht) h

/-- Where all named ones of some trees are marked, these are wrapped one by one. -/
lemma forall₂_filter_isNamed_of_marked
    (h : List.Forall₂ (fun m t' => wraps operand m.1 m.2 t' = true)
      (ts.map fun t => (t.isNamed, t)) ts') :
    List.Forall₂ (Wrapped operand) (ts.filter isNamed) (ts'.filter isNamed) :=
  forall₂_filter_isNamed ((List.forall₂_map_left_iff.1 h).imp fun _ _ => wrapped_of_wraps)

/-! ## Literals and names -/

/-- The same tree names the same variable. -/
lemma Same.variableName?_eq (h : Same operand t t') : t'.variableName? = t.variableName? := by
  unfold variableName?
  rw [h.isToken_eq, h.isToken_eq]
  split
  · rename_i hname
    rcases Bool.or_eq_true _ _ ▸ hname with hname | hname <;> rw [h.text_eq hname]
  · rfl

/-- The same literal has the same value. -/
lemma Same.literalValue?_eq (h : Same operand t t') : t'.literalValue? = t.literalValue? := by
  cases t with
  | leaf u =>
    obtain ⟨u', rfl, hkind, htext⟩ := same_leaf_iff.1 h
    simp only [literalValue?, hkind, htext]
  | node k ts =>
    by_cases hk : k = .template
    · subst hk
      obtain ⟨ts', rfl, htext, hall⟩ := same_children rfl h
      have hany : ts'.any (isNode .templateSubstitution) = ts.any (isNode .templateSubstitution) := by
        clear htext h
        induction hall with
        | nil => rfl
        | cons hfirst _ ih => rw [List.any_cons, List.any_cons, hfirst.isNode_eq, ih]
      simp only [literalValue?, hany]
      cases hsubstitution : ts.any (isNode .templateSubstitution) with
      | true => simp
      | false =>
        simp only [keepsText, hsubstitution, Bool.or_false, bne_self_eq_false, Bool.false_or,
          beq_iff_eq] at htext
        rw [htext]
    · obtain ⟨ts', rfl, -⟩ := same_node_iff.1 h
      simp [literalValue?, hk]

/-- A wrapped string has the same value. -/
lemma Wrapped.stringValue?_eq (h : Wrapped operand t t') : t'.stringValue? = t.stringValue? :=
  h.unwrap.literalValue?_eq

/-! ## Objects and arrays -/

/-- Two names with values are the same name, with a value that is wrapped. -/
def NamesWrapped (operand : Tree → Bool) (p p' : String × Tree) : Prop :=
  p.1 = p'.1 ∧ Wrapped operand p.2 p'.2

/-- Tables of the same names, with values that are wrapped, have such values for each name. -/
lemma get?_ofList_of_forall₂ {es es' : List (String × Tree)}
    (h : List.Forall₂ (NamesWrapped operand) es es') (name : String) :
    Option.Rel (Wrapped operand) ((Table.ofList es).get? name) ((Table.ofList es').get? name) := by
  rw [Table.get?_ofList, Table.get?_ofList]
  generalize hes : es.reverse = xs
  generalize hes' : es'.reverse = xs'
  have hreverse : List.Forall₂ (NamesWrapped operand) xs xs' := by
    rw [← hes, ← hes']
    exact List.forall₂_reverse_iff.2 h
  clear h hes hes'
  induction hreverse with
  | nil => exact .none
  | @cons p p' _ _ hfirst _ ih =>
    obtain ⟨n, v⟩ := p
    obtain ⟨n', v'⟩ := p'
    obtain ⟨rfl, hv⟩ := hfirst
    rw [Table.lookup, Table.lookup]
    split
    · exact .some hv
    · exact ih

/-- Values that may be wrapped stay so when a missing one is replaced. -/
lemma wrapped_getD {a a' : Option Tree} (h : Option.Rel (Wrapped operand) a a')
    (ht : Wrapped operand t t') : Wrapped operand (a.getD t) (a'.getD t') := by
  rcases exists_of_rel h with ⟨rfl, rfl⟩ | ⟨v, v', rfl, rfl, hv⟩
  · exact ht
  · exact hv

/-- Nodes that are no pairs define nothing. -/
lemma property?_node (hk : k ≠ .pair) (ts : List Tree) : (node k ts).property? = none := by
  cases k <;> first | exact absurd rfl hk | rfl

/-- The same key is the same name. -/
lemma Same.propertyName?_eq (h : Same operand t t') : t'.propertyName? = t.propertyName? := by
  unfold propertyName?
  rw [h.isToken_eq, h.isToken_eq, h.literalValue?_eq]
  split
  · rename_i hproperty
    rw [h.text_eq hproperty]
  · rfl

/-- The same item of an object defines the same property, with a value that may be wrapped. -/
lemma Same.property? (h : Same operand t t') :
    Option.Rel (NamesWrapped operand) t.property? t'.property? := by
  cases t with
  | leaf u =>
    obtain ⟨u', rfl, hkind, htext⟩ := same_leaf_iff.1 h
    simp only [Tree.property?, hkind, htext]
    split
    · exact .some ⟨rfl, h.wrapped⟩
    · exact .none
  | node k ts =>
    obtain ⟨ts', rfl, -, hall⟩ := same_node_iff.1 h
    by_cases hk : k = .pair
    · subst hk
      cases ts with
      | nil =>
        cases hall
        exact .none
      | cons key values =>
        rw [marked, List.forall₂_cons_left_iff] at hall
        obtain ⟨key', values', hkey, hvalues, rfl⟩ := hall
        have hkey : Same operand key key' := hkey
        rw [property?_pair, property?_pair, hkey.propertyName?_eq]
        cases propertyName? key with
        | none => exact .none
        | some name =>
          exact .some ⟨rfl, wrapped_getD (getLast?_of_markLast hvalues) hkey.wrapped⟩
    · rw [property?_node hk, property?_node hk]
      exact .none

/-- A wrapped object has the same properties, with values that may be wrapped. -/
lemma Wrapped.properties (h : Wrapped operand t t') (name : String) :
    Option.Rel (Wrapped operand) (t.properties.get? name) (t'.properties.get? name) := by
  have hunwrap := h.unwrap
  unfold Tree.properties
  cases hobject : t.unwrap with
  | leaf u =>
    rw [hobject] at hunwrap
    obtain ⟨u', hu', -⟩ := same_leaf_iff.1 hunwrap
    rw [hu']
    exact .none
  | node k ts =>
    rw [hobject] at hunwrap
    by_cases hk : k = .object
    · subst hk
      obtain ⟨ts', hts', -, hall⟩ := same_children rfl hunwrap
      rw [hts']
      exact get?_ofList_of_forall₂
        (List.rel_filterMap (fun {t t'} (ht : Same operand t t') => ht.property?) hall) name
    · obtain ⟨ts', hts', -⟩ := same_node_iff.1 hunwrap
      rw [hts']
      cases k <;> first | exact absurd rfl hk | exact .none

/-- A wrapped array has the same elements, which may be wrapped. -/
lemma Wrapped.elements (h : Wrapped operand t t') :
    List.Forall₂ (Wrapped operand) t.elements t'.elements := by
  have hunwrap := h.unwrap
  unfold Tree.elements
  cases harray : t.unwrap with
  | leaf u =>
    rw [harray] at hunwrap
    obtain ⟨u', hu', -⟩ := same_leaf_iff.1 hunwrap
    rw [hu']
    exact .nil
  | node k ts =>
    rw [harray] at hunwrap
    obtain ⟨ts', hts', -, hall⟩ := same_node_iff.1 hunwrap
    rw [hts']
    by_cases hk : k = .array
    · subst hk
      exact forall₂_filter_isNamed_of_marked hall
    · cases k <;> first | exact absurd rfl hk | exact .nil

/-! ## Calls -/

/-- The first tree with a property is the same, if the same trees have it. -/
lemma find?_of_forall₂ {p : Tree → Bool} (hp : ∀ {t t'}, Same operand t t' → p t' = p t)
    (h : List.Forall₂ (Same operand) ts ts') :
    Option.Rel (Same operand) (ts.find? p) (ts'.find? p) := by
  induction h with
  | nil => exact .none
  | cons hfirst _ ih =>
    rw [List.find?_cons, List.find?_cons, hp hfirst]
    split
    · exact .some hfirst
    · exact ih

/-- The same argument list has the same arguments, which may be wrapped. -/
lemma Same.namedChildren (h : Same operand t t') (ht : t.isArgumentList = true) :
    List.Forall₂ (Wrapped operand) t.namedChildren t'.namedChildren := by
  cases t with
  | leaf u => cases ht
  | node k ts =>
    obtain ⟨ts', rfl, -, hall⟩ := same_node_iff.1 h
    simp only [isArgumentList, isNode, Bool.or_eq_true, beq_iff_eq] at ht
    rcases ht with rfl | rfl
    · exact forall₂_filter_isNamed_of_marked hall
    · obtain ⟨_, hts', -, hsame⟩ := same_children rfl h
      cases hts'
      exact forall₂_filter_isNamed (hsame.imp fun _ _ => Same.wrapped)

/-- What is the same as a call: a call whose callee may be wrapped unless it is `import`. -/
lemma same_call (h : Same operand t t') : t.callee? = none ∧ t'.callee? = none ∨
    ∃ f ts f' ts', t = node .call (f :: ts) ∧ t' = node .call (f' :: ts') ∧
      wraps operand (!f.isToken .importWord) f f' = true ∧ List.Forall₂ (Same operand) ts ts' := by
  cases t with
  | leaf u =>
    obtain ⟨u', rfl, -⟩ := same_leaf_iff.1 h
    exact Or.inl ⟨rfl, rfl⟩
  | node k ts =>
    obtain ⟨ts', rfl, -, hall⟩ := same_node_iff.1 h
    by_cases hk : k = .call
    · subst hk
      cases ts with
      | nil =>
        cases hall
        exact Or.inl ⟨rfl, rfl⟩
      | cons f ts =>
        rw [marked, List.forall₂_cons_left_iff] at hall
        obtain ⟨f', ts', hf, hrest, rfl⟩ := hall
        rw [List.forall₂_map_left_iff] at hrest
        exact Or.inr ⟨f, ts, f', ts', rfl, rfl, hf, hrest⟩
    · have hnone : ∀ ts, (node k ts).callee? = none := by
        intro ts
        cases k <;> first | exact absurd rfl hk | rfl
      exact Or.inl ⟨hnone ts, hnone ts'⟩

/-- The same call has the same arguments, which may be wrapped. -/
lemma Same.callArguments (h : Same operand t t') :
    List.Forall₂ (Wrapped operand) t.callArguments t'.callArguments := by
  rcases same_call h with ⟨hnone, hnone'⟩ | ⟨f, ts, f', ts', rfl, rfl, -, hrest⟩
  · rw [callArguments_of_callee? hnone, callArguments_of_callee? hnone']
    exact .nil
  · have hlist : ∀ {t t'}, Same operand t t' → t'.isArgumentList = t.isArgumentList := by
      intro t t' ht
      rw [isArgumentList, isArgumentList, ht.isNode_eq, ht.isNode_eq]
    have harguments : ∀ f ts, (node .call (f :: ts)).callArguments =
        ((ts.find? isArgumentList).map Tree.namedChildren).getD [] := fun _ _ => rfl
    rw [harguments, harguments]
    rcases exists_of_rel (find?_of_forall₂ hlist hrest) with ⟨hnone, hnone'⟩ | ⟨l, l', hl, hl', h⟩
    · rw [hnone, hnone']
      exact .nil
    · rw [hl, hl']
      exact h.namedChildren (List.find?_some hl)

/-- The same call is a call of `import`. -/
lemma Same.isImportCall_eq (h : Same operand t t') : t'.isImportCall = t.isImportCall := by
  unfold isImportCall
  rcases same_call h with ⟨hnone, hnone'⟩ | ⟨f, ts, f', ts', rfl, rfl, hf, -⟩
  · rw [hnone, hnone']
  · rw [callee?, callee?, Option.any_some, Option.any_some]
    cases himport : f.isToken .importWord with
    | true =>
      rw [himport] at hf
      have hf : Same operand f f' := hf
      rw [hf.isToken_eq, himport]
    | false =>
      rcases wraps_iff.1 hf with hsame | ⟨k', ts'', rfl, -⟩
      · rw [hsame.isToken_eq, himport]
      · rfl

/-- The same call calls a function of the same name. -/
lemma Same.calleeName?_eq (h : Same operand t t') : t'.calleeName? = t.calleeName? := by
  unfold calleeName?
  rcases same_call h with ⟨hnone, hnone'⟩ | ⟨f, ts, f', ts', rfl, rfl, hf, -⟩
  · rw [hnone, hnone']
  · have hunwrap := (wrapped_of_wraps hf).unwrap
    rw [callee?, callee?]
    dsimp only
    rw [hunwrap.isToken_eq]
    split
    · rename_i hidentifier
      rw [hunwrap.text_eq hidentifier]
    · rfl

/-- The same call imports the same literal specifier. -/
lemma Same.importSpecifier?_eq (h : Same operand t t') :
    t'.importSpecifier? = t.importSpecifier? := by
  have hliteral : t'.firstLiteral? = t.firstLiteral? := by
    unfold firstLiteral?
    have harguments := h.callArguments
    generalize t.callArguments = args at harguments
    generalize t'.callArguments = args' at harguments
    cases harguments with
    | nil => rfl
    | cons hfirst _ => exact hfirst.stringValue?_eq
  rw [importSpecifier?, importSpecifier?, h.isImportCall_eq, hliteral]

/-! ## Top-level constants -/

/-- The same initializer has the same value, which may be wrapped. -/
lemma Same.getLast?_children (h : Same operand t t') (ht : t.isNode .initializer = true) :
    Option.Rel (Wrapped operand) t.children.getLast? t'.children.getLast? := by
  cases t with
  | leaf u => cases ht
  | node k ts =>
    obtain ⟨ts', rfl, -, hall⟩ := same_node_iff.1 h
    simp only [isNode, beq_iff_eq] at ht
    subst ht
    exact getLast?_of_markLast hall

/-- The same declarator defines the same name, with a value that may be wrapped. -/
lemma Same.declaredValue? (h : Same operand t t') :
    Option.Rel (NamesWrapped operand) t.declaredValue? t'.declaredValue? := by
  cases t with
  | leaf u =>
    obtain ⟨u', rfl, -⟩ := same_leaf_iff.1 h
    exact .none
  | node k ts =>
    by_cases hk : k = .variableDeclarator
    · subst hk
      obtain ⟨ts', rfl, -, hall⟩ := same_children rfl h
      cases hall with
      | nil => exact .none
      | @cons name name' ts ts' hname hrest =>
        simp only [Tree.declaredValue?, hname.isToken_eq]
        rcases exists_of_rel (find?_of_forall₂ (fun ht => ht.isNode_eq .initializer) hrest) with
          ⟨hnone, hnone'⟩ | ⟨i, i', hi, hi', hsame⟩
        · rw [hnone, hnone']
          exact .none
        · rw [hi, hi']
          dsimp only
          split
          · rename_i hidentifier
            rw [hname.text_eq hidentifier]
            rcases exists_of_rel (hsame.getLast?_children (List.find?_some hi)) with
              ⟨hnone, hnone'⟩ | ⟨v, v', hv, hv', hvalue⟩
            · rw [hnone, hnone']
              exact .none
            · rw [hv, hv']
              exact .some ⟨rfl, hvalue⟩
          · exact .none
    · obtain ⟨ts', rfl, -⟩ := same_node_iff.1 h
      have hnone : ∀ ts, (node k ts).declaredValue? = none := by
        intro ts
        cases k <;> first | exact absurd rfl hk | rfl
      rw [hnone, hnone]
      exact .none

/-- In nodes of most kinds all children are the same. -/
lemma Same.children (hk : ∀ ts, marked k ts = ts.map (false, ·)) (h : Same operand t t')
    (ht : t.isNode k = true) : List.Forall₂ (Same operand) t.children t'.children := by
  cases t with
  | leaf u => cases ht
  | node l ts =>
    simp only [isNode, beq_iff_eq] at ht
    subst ht
    obtain ⟨ts', rfl, -, hall⟩ := same_children (hk ts) h
    exact hall

/-- The same tree is a variable declaration. -/
lemma Same.isVariableDeclaration_eq (h : Same operand t t') :
    t'.isVariableDeclaration = t.isVariableDeclaration := by
  rw [isVariableDeclaration, isVariableDeclaration, h.isNode_eq, h.isNode_eq]

/-- The same statement is, or exports, the same declaration. -/
lemma Same.declaration? (h : Same operand t t') :
    Option.Rel (Same operand) t.declaration? t'.declaration? := by
  unfold Tree.declaration?
  rw [h.isNode_eq, h.isVariableDeclaration_eq]
  split
  · rename_i hexport
    exact find?_of_forall₂ Same.isVariableDeclaration_eq (h.children (fun _ => rfl) hexport)
  · split
    · exact .some h
    · exact .none

/-- What is, or is exported as, a declaration declares variables. -/
lemma isVariableDeclaration_of_declaration? {d : Tree} (h : t.declaration? = some d) :
    d.isVariableDeclaration = true := by
  unfold Tree.declaration? at h
  split at h
  · exact List.find?_some h
  · split at h
    · rename_i hdeclaration
      cases h
      exact hdeclaration
    · cases h

/-- The same script has the same constants, with values that may be wrapped. -/
lemma Same.constants {root root' : Tree} (h : Same operand root root')
    (hroot : root.isNode .program = true) (name : String) :
    Option.Rel (Wrapped operand) (root.constants.get? name) (root'.constants.get? name) := by
  refine get?_ofList_of_forall₂ (List.rel_flatMap (h.children (fun _ => rfl) hroot) ?_) name
  intro s s' hs
  dsimp only
  rcases exists_of_rel hs.declaration? with ⟨hnone, hnone'⟩ | ⟨d, d', hd, hd', hsame⟩
  · rw [hnone, hnone']
    exact .nil
  · rw [hd, hd']
    have hchildren : List.Forall₂ (Same operand) d.children d'.children := by
      have hdeclares := isVariableDeclaration_of_declaration? hd
      rw [isVariableDeclaration, Bool.or_eq_true] at hdeclares
      rcases hdeclares with hlexical | hvariable
      · exact hsame.children (fun _ => rfl) hlexical
      · exact hsame.children (fun _ => rfl) hvariable
    exact List.rel_filterMap (fun _ _ ht => Same.declaredValue? ht) hchildren

/-! ## Walks -/

section Walks

variable {α β : Type} {R : α → β → Prop} {f : Tree → Option α} {g : Tree → Option β}

/-- Two searches find related things in the same trees, and the second one finds nothing at tokens, in
wrappers themselves and in what is fit to stand in them. -/
structure FindsAlike (operand : Tree → Bool) (R : α → β → Prop) (f : Tree → Option α)
    (g : Tree → Option β) : Prop where
  same : ∀ {t t'}, Same operand t t' → Option.Rel R (f t) (g t')
  token : ∀ u, g (leaf u) = none
  wrapper : ∀ k ts, k.isTransparent = true → g (node k ts) = none
  operand : ∀ t, operand t = true → t.preorder.filterMap g = []

/-- Nothing is found in trees that have no name. -/
lemma FindsAlike.of_not_isNamed (hfind : FindsAlike operand R f g) (ht : t.isNamed = false) :
    t.preorder.filterMap g = [] := by
  cases t with
  | leaf u => simp [hfind.token]
  | node k ts => cases ht

/-- Nothing is found in trees that are fit to stand in wrappers. -/
lemma FindsAlike.of_all (hfind : FindsAlike operand R f g) (hts : ∀ t ∈ ts, operand t = true) :
    (preorderOf ts).filterMap g = [] := by
  induction ts with
  | nil => rfl
  | cons u us ih =>
    obtain ⟨hu, hus⟩ := List.forall_mem_cons.1 hts
    rw [preorderOf_cons, List.filterMap_append, hfind.operand u hu, ih hus, List.append_nil]

mutual

/-- What is found in a tree is found in the wrapped one, as often and in the same order. -/
lemma forall₂_filterMap_preorder (hfind : FindsAlike operand R f g) (mark : Bool) (t : Tree) :
    (t' : Tree) → wraps operand mark t t' = true →
      List.Forall₂ R (t.preorder.filterMap f) (t'.preorder.filterMap g)
  | leaf u', h => by
    obtain h | ⟨k', ts', ht', -⟩ := wraps_iff.1 h
    · cases t with
      | leaf u =>
        rcases exists_of_rel (hfind.same h) with ⟨hnone, hnone'⟩ | ⟨a, b, ha, hb, hab⟩
        · simp [hnone, hnone']
        · simp [ha, hb, hab]
      | node k ts =>
        obtain ⟨ts', hts', -⟩ := same_node_iff.1 h
        cases hts'
    · cases ht'
  | node k' ts', h => by
    rcases wraps_iff.1 h with h | ⟨_, _, ⟨rfl, rfl⟩, -, -, hk, hfirst⟩
    · cases t with
      | leaf u =>
        obtain ⟨u', hu', -⟩ := same_leaf_iff.1 h
        cases hu'
      | node k ts =>
        obtain ⟨_, hts', -, hall⟩ := same_node_iff.1 h
        cases hts'
        have hrest := forall₂_filterMap_preorderOf hfind (marked k' ts) ts' hall
        rw [map_snd_marked] at hrest
        rw [preorder_node, preorder_node, List.filterMap_cons, List.filterMap_cons]
        rcases exists_of_rel (hfind.same h) with ⟨hnone, hnone'⟩ | ⟨a, b, ha, hb, hab⟩
        · rw [hnone, hnone']
          exact hrest
        · rw [ha, hb]
          exact .cons hab hrest
    · rw [preorder_node, List.filterMap_cons, hfind.wrapper k' ts' hk]
      exact forall₂_filterMap_wrapsFirst hfind t ts' hfirst

/-- What is found in a tree is found in the wrapper around it. -/
lemma forall₂_filterMap_wrapsFirst (hfind : FindsAlike operand R f g) (t : Tree) :
    (ts' : List Tree) → wrapsFirst operand t ts' = true →
      List.Forall₂ R (t.preorder.filterMap f) ((preorderOf ts').filterMap g)
  | [], h => by cases h
  | t' :: ts', h => by
    rw [wrapsFirst] at h
    rw [preorderOf_cons, List.filterMap_append]
    split at h
    · obtain ⟨hfirst, hrest⟩ := Bool.and_eq_true _ _ ▸ h
      rw [hfind.of_all (List.all_eq_true.1 hrest), List.append_nil]
      exact forall₂_filterMap_preorder hfind true t t' hfirst
    · rename_i hnamed
      rw [hfind.of_not_isNamed (Bool.not_eq_true _ ▸ hnamed), List.nil_append]
      exact forall₂_filterMap_wrapsFirst hfind t ts' h

/-- What is found in some trees is found in the wrapped ones. -/
lemma forall₂_filterMap_preorderOf (hfind : FindsAlike operand R f g) :
    (ms : List (Bool × Tree)) → (ts' : List Tree) →
    List.Forall₂ (fun m t' => wraps operand m.1 m.2 t' = true) ms ts' →
      List.Forall₂ R ((preorderOf (ms.map Prod.snd)).filterMap f) ((preorderOf ts').filterMap g)
  | [], [], _ => .nil
  | m :: ms, t' :: ts', h => by
    obtain ⟨hfirst, hrest⟩ := List.forall₂_cons.1 h
    rw [List.map_cons, preorderOf_cons, preorderOf_cons, List.filterMap_append,
      List.filterMap_append]
    exact List.rel_append (forall₂_filterMap_preorder hfind m.1 m.2 t' hfirst)
      (forall₂_filterMap_preorderOf hfind ms ts' hrest)

end

end Walks

end RouteAssets.Script.Tree
