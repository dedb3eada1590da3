import RouteAssets.Proofs.Script.Walk
import RouteAssets.Proofs.Script.Written
import RouteAssets.Script.Source

/-!
# Scripts without their types

A script runs without its types. **Erasing** them (`erase`) takes the annotations out of a tree: the
nodes that stand for types, and with them what follows the operand of `as` and `satisfies`. What
stands in the place of an expression is no annotation: the function that is called, the arguments of
a call, the operand of a wrapper, and the parts of a template.

What the questions about `import` calls look at is left (`importSpecifier?_erase`): the tree behind
wrappers, the value of a literal, the word that is called, and the first argument. So whatever is
looked for in all subtrees of an erased script is what is found in those subtrees of the script that
stand in no type (`filterMap_preorder_erase`). Every subtree is listed with the mark whether it does
(`located`).
-/

namespace RouteAssets.Script

/-- Does a node of this kind stand for a type? -/
def NodeKind.isType : NodeKind → Bool
  | .typeAscription | .typeArguments | .typeParameters | .typeParameter | .typeExpression
  | .objectType | .typeMember | .interfaceDeclaration | .typeAliasDeclaration => true
  | _ => false

namespace Tree

/-! ## Erasing -/

/-- Does a tree stand for a type? -/
def isType : Tree → Bool
  | leaf _ => false
  | node k _ => k.isType

/-- Which siblings are annotations where the first named one is an operand: those behind it that
pass a test. -/
def behindOperand (test : Tree → Bool) : List Tree → List Bool
  | [] => []
  | t :: ts => if t.isNamed then false :: ts.map test else false :: behindOperand test ts

/-- Which children of a node are annotations: the types among them, apart from those in the place of
an expression. The operand of `as` or `satisfies` is all that is left of it. -/
def annotations : NodeKind → List Tree → List Bool
  | .call, _ :: ts => false :: ts.map isType
  | .arguments, ts => ts.map fun _ => false
  | .template, ts => ts.map fun _ => false
  | .parenthesized, ts => behindOperand isType ts
  | .nonNull, ts => behindOperand isType ts
  | .asExpression, ts => behindOperand (fun _ => true) ts
  | .satisfiesExpression, ts => behindOperand (fun _ => true) ts
  | _, ts => ts.map isType

mutual

/-- A tree without its annotations. A template that is a literal has none. -/
def erase : Tree → Tree
  | leaf u => leaf u
  | node k ts =>
    if (node k ts).literalValue?.isSome then node k ts
    else node k (eraseAll (annotations k ts) ts)

/-- Siblings without those that are marked as annotations, and without the annotations in them. -/
def eraseAll : List Bool → List Tree → List Tree
  | _, [] => []
  | marks, t :: ts =>
    if marks.headD false then eraseAll marks.tail ts else erase t :: eraseAll marks.tail ts

end

mutual

/-- Every subtree in the order of `preorder`, marked if it stands in an annotation. All of them are
marked where the tree itself stands in one. -/
def located (inType : Bool) : Tree → List (Bool × Tree)
  | leaf u => [(inType, leaf u)]
  | node k ts => (inType, node k ts) ::
    if (node k ts).literalValue?.isSome then (preorderOf ts).map (inType, ·)
    else locatedAll inType (annotations k ts) ts

/-- The subtrees of siblings of which some are marked as annotations. -/
def locatedAll (inType : Bool) : List Bool → List Tree → List (Bool × Tree)
  | _, [] => []
  | marks, t :: ts =>
    located (inType || marks.headD false) t ++ locatedAll inType marks.tail ts

end

-- what is left of an annotated script is the script without its annotations
example :
    (Source.read .typescript "function f<A>(x?: A): B \x7b return g<A>(x); \x7d").root?.map erase =
      (Source.read .typescript "function f(x?) \x7b return g(x); \x7d").root? := by decide +kernel

variable {k : NodeKind} {t : Tree} {ts : List Tree}

/-! ## What is left of siblings -/

/-- Where annotations are told by a test, the siblings are left that fail it. -/
lemma eraseAll_map (test : Tree → Bool) (ts : List Tree) :
    eraseAll (ts.map test) ts = (ts.filter fun t => !test t).map erase := by
  induction ts with
  | nil => rfl
  | cons t ts ih =>
    rw [List.map_cons, eraseAll, List.headD_cons, List.tail_cons, ih]
    cases ht : test t <;> simp [ht]

/-- Where there are no annotations, all siblings are left. -/
lemma eraseAll_map_false (ts : List Tree) :
    eraseAll (ts.map fun _ => false) ts = ts.map erase := by
  rw [eraseAll_map, Bool.not_false, List.filter_true]

/-- A node that is no literal is left with some of its children. -/
lemma erase_node (h : (node k ts).literalValue? = none) :
    erase (node k ts) = node k (eraseAll (annotations k ts) ts) := by
  rw [erase, h]
  rfl

/-- A literal is left as it is. -/
lemma erase_of_isSome (h : t.literalValue?.isSome = true) : erase t = t := by
  cases t with
  | leaf u => rfl
  | node k ts => rw [erase, if_pos h]

/-- A node that is no template is no literal. -/
lemma literalValue?_node (hk : k ≠ .template) (ts : List Tree) :
    (node k ts).literalValue? = none := by
  rw [literalValue?, if_neg]
  simp [hk]

/-- A node stays one of its kind. -/
lemma exists_erase_node (k : NodeKind) (ts : List Tree) : ∃ us, erase (node k ts) = node k us := by
  rw [erase]
  split
  · exact ⟨ts, rfl⟩
  · exact ⟨_, rfl⟩

/-- Erasing keeps kinds of nodes. -/
@[simp] lemma isNode_erase (k : NodeKind) (t : Tree) : t.erase.isNode k = t.isNode k := by
  cases t with
  | leaf u => rfl
  | node k' ts =>
    obtain ⟨us, hus⟩ := exists_erase_node k' ts
    rw [hus, isNode, isNode]

/-- Erasing keeps tokens. -/
@[simp] lemma isToken_erase (k : TokenKind) (t : Tree) : t.erase.isToken k = t.isToken k := by
  cases t with
  | leaf u => rfl
  | node k' ts =>
    obtain ⟨us, hus⟩ := exists_erase_node k' ts
    rw [hus, isToken, isToken]

/-- Erasing keeps what is named. -/
@[simp] lemma isNamed_erase (t : Tree) : t.erase.isNamed = t.isNamed := by
  cases t with
  | leaf u => rfl
  | node k ts =>
    obtain ⟨us, hus⟩ := exists_erase_node k ts
    rw [hus, isNamed, isNamed]

/-! ## Questions -/

/-- The annotations in a wrapper follow its operand. -/
lemma exists_annotations_eq (hk : k.isTransparent = true) (ts : List Tree) :
    ∃ test, annotations k ts = behindOperand test ts := by
  cases k <;> first | exact ⟨_, rfl⟩ | cases hk

mutual

/-- Wrappers are looked through before and after erasing. -/
lemma unwrap_erase : (t : Tree) → t.erase.unwrap = t.unwrap.erase
  | leaf u => rfl
  | node k ts => by
    by_cases hk : k.isTransparent = true
    · have hliteral : (node k ts).literalValue? = none :=
        literalValue?_node (by rintro rfl; cases hk) ts
      obtain ⟨test, htest⟩ := exists_annotations_eq hk ts
      have herase := erase_node hliteral
      rw [unwrap, if_pos hk, ← unwrapFirst_erase (node k ts) test ts, herase, unwrap, if_pos hk,
        htest]
    · obtain ⟨us, hus⟩ := exists_erase_node k ts
      rw [unwrap, if_neg hk, hus, unwrap, if_neg hk]

/-- The operand is found before and after erasing. -/
lemma unwrapFirst_erase (whole : Tree) (test : Tree → Bool) : (ts : List Tree) →
    unwrapFirst whole.erase (eraseAll (behindOperand test ts) ts) = (unwrapFirst whole ts).erase
  | [] => rfl
  | t :: ts => by
    by_cases ht : t.isNamed = true
    · simp [behindOperand, eraseAll, unwrapFirst, ht, unwrap_erase t]
    · simp [behindOperand, eraseAll, unwrapFirst, ht, unwrapFirst_erase whole test ts]

end

/-- A literal has its value before and after erasing, and nothing becomes one. -/
lemma literalValue?_erase (t : Tree) : t.erase.literalValue? = t.literalValue? := by
  cases h : t.literalValue? with
  | some s => rw [erase_of_isSome (by rw [h]; rfl), h]
  | none =>
    cases t with
    | leaf u => exact h
    | node k ts =>
      rw [erase_node h]
      by_cases hk : k = .template
      · -- it has a substitution, which is left
        subst hk
        have hany : ts.any (isNode .templateSubstitution) = true := by
          by_contra hnone
          rw [Bool.not_eq_true] at hnone
          simp [literalValue?, hnone] at h
        have hleft : (ts.map erase).any (isNode .templateSubstitution) = true := by
          simpa [List.any_map, Function.comp_def] using hany
        rw [annotations, eraseAll_map_false, literalValue?, hleft]
        rfl
      · exact literalValue?_node hk _

/-- A text has its value before and after erasing. -/
lemma stringValue?_erase (t : Tree) : t.erase.stringValue? = t.stringValue? := by
  rw [stringValue?, stringValue?, unwrap_erase, literalValue?_erase]

/-- A call is left with what is called and with the siblings behind it that are no types. -/
lemma erase_call (f : Tree) (ts : List Tree) :
    erase (node .call (f :: ts)) =
      node .call (f.erase :: (ts.filter fun t => !t.isType).map erase) := by
  rw [erase_node (literalValue?_node (by simp) _), annotations, eraseAll, List.headD_cons,
    List.tail_cons, eraseAll_map]
  rfl

/-- A tree calls something, or nothing before and after erasing. -/
lemma exists_call_or (t : Tree) :
    (∃ f ts, t = node .call (f :: ts)) ∨ (t.callee? = none ∧ t.erase.callee? = none) := by
  cases t with
  | leaf u => exact Or.inr ⟨rfl, rfl⟩
  | node k ts =>
    by_cases hk : k = .call
    · subst hk
      cases ts with
      | nil => exact Or.inr ⟨rfl, rfl⟩
      | cons f ts => exact Or.inl ⟨f, ts, rfl⟩
    · have hnone : ∀ us, (node k us).callee? = none := fun us => by
        cases k <;> first | exact absurd rfl hk | rfl
      obtain ⟨us, hus⟩ := exists_erase_node k ts
      exact Or.inr ⟨hnone ts, hus ▸ hnone us⟩

/-- A call of `import` is one before and after erasing. -/
lemma isImportCall_erase (t : Tree) : t.erase.isImportCall = t.isImportCall := by
  rcases exists_call_or t with ⟨f, ts, rfl⟩ | ⟨hnone, hnone'⟩
  · simp [erase_call, isImportCall, callee?]
  · rw [isImportCall, isImportCall, hnone, hnone']

/-- An argument list is one before and after erasing. -/
lemma isArgumentList_erase (t : Tree) : t.erase.isArgumentList = t.isArgumentList := by
  rw [isArgumentList, isArgumentList, isNode_erase, isNode_erase]

/-- An argument list is no type. -/
lemma isType_of_isArgumentList (h : t.isArgumentList = true) : t.isType = false := by
  cases t with
  | leaf u => rfl
  | node k ts => cases k <;> first | rfl | cases h

/-- The argument list of a call is left. -/
lemma find?_isArgumentList_erase (ts : List Tree) :
    ((ts.filter fun t => !t.isType).map erase).find? isArgumentList =
      (ts.find? isArgumentList).map erase := by
  have hlist : isArgumentList ∘ erase = isArgumentList := funext isArgumentList_erase
  rw [List.find?_map, hlist, List.find?_filter]
  congr 2
  funext t
  cases h : t.isArgumentList with
  | false => simp
  | true => simp [isType_of_isArgumentList h]

/-- The first argument is a text before and after erasing, or none. -/
lemma head?_namedChildren_erase (h : t.isArgumentList = true) :
    t.erase.namedChildren.head?.bind stringValue? = t.namedChildren.head?.bind stringValue? := by
  cases t with
  | leaf u => cases h
  | node k ts =>
    cases hliteral : (node k ts).literalValue? with
    | some s => rw [erase_of_isSome (by rw [hliteral]; rfl)]
    | none =>
      have hmarks : annotations k ts = ts.map fun _ => false := by
        cases k <;> first | rfl | cases h
      have hnamed : (ts.map erase).filter isNamed = (ts.filter isNamed).map erase := by
        rw [List.filter_map]
        congr 2
        exact funext isNamed_erase
      rw [erase_node hliteral, hmarks, eraseAll_map_false, namedChildren, children, hnamed,
        List.head?_map, namedChildren, children]
      cases (ts.filter isNamed).head? with
      | none => rfl
      | some a => exact stringValue?_erase a

/-- The first argument of a call is a text before and after erasing, or none. -/
lemma firstLiteral?_erase (t : Tree) : t.erase.firstLiteral? = t.firstLiteral? := by
  have hfirst : ∀ t : Tree, t.firstLiteral? = t.callArguments.head?.bind stringValue? := by
    intro t
    rw [firstLiteral?]
    cases t.callArguments <;> rfl
  rw [hfirst, hfirst]
  rcases exists_call_or t with ⟨f, ts, rfl⟩ | ⟨hnone, hnone'⟩
  · rw [erase_call, callArguments, callArguments, find?_isArgumentList_erase]
    cases hfind : ts.find? isArgumentList with
    | none => rfl
    | some list => exact head?_namedChildren_erase (List.find?_some hfind)
  · rw [callArguments_of_callee? hnone, callArguments_of_callee? hnone']

/-- A call of `import` has its specifier before and after erasing. -/
lemma importSpecifier?_erase (t : Tree) : t.erase.importSpecifier? = t.importSpecifier? := by
  rw [importSpecifier?, importSpecifier?, isImportCall_erase, firstLiteral?_erase]

/-! ## Walks -/

mutual

/-- Without their marks these are the subtrees. -/
lemma map_snd_located (inType : Bool) : (t : Tree) → (located inType t).map Prod.snd = t.preorder
  | leaf u => rfl
  | node k ts => by
    rw [located, List.map_cons, preorder_node]
    split
    · simp [Function.comp_def]
    · rw [map_snd_locatedAll inType (annotations k ts) ts]

/-- Without their marks these are the subtrees of siblings. -/
lemma map_snd_locatedAll (inType : Bool) : (marks : List Bool) → (ts : List Tree) →
    (locatedAll inType marks ts).map Prod.snd = preorderOf ts
  | _, [] => rfl
  | marks, t :: ts => by
    rw [locatedAll, List.map_append, map_snd_located _ t, map_snd_locatedAll inType marks.tail ts,
      preorderOf_cons]

end

mutual

/-- In an annotation everything stands in one. -/
lemma fst_of_mem_located {e : Bool × Tree} : (t : Tree) → e ∈ located true t → e.1 = true
  | leaf u, h => by
    rw [located, List.mem_singleton] at h
    rw [h]
  | node k ts, h => by
    rw [located, List.mem_cons] at h
    rcases h with rfl | h
    · rfl
    · split at h
      · obtain ⟨u, -, rfl⟩ := List.mem_map.1 h
        rfl
      · exact fst_of_mem_locatedAll (annotations k ts) ts h

/-- In annotations everything stands in one. -/
lemma fst_of_mem_locatedAll {e : Bool × Tree} : (marks : List Bool) → (ts : List Tree) →
    e ∈ locatedAll true marks ts → e.1 = true
  | _, [], h => absurd h List.not_mem_nil
  | marks, t :: ts, h => by
    rw [locatedAll, Bool.true_or] at h
    rcases List.mem_append.1 h with h | h
    · exact fst_of_mem_located t h
    · exact fst_of_mem_locatedAll marks.tail ts h

end

/-- What a search finds in a subtree that stands in no annotation. -/
def foundOutside {α : Type} (search : Tree → Option α) (e : Bool × Tree) : Option α :=
  if e.1 then none else search e.2

section Walks

variable {α : Type} {search : Tree → Option α}

/-- In an annotation nothing is found outside. -/
lemma filterMap_located_true (t : Tree) :
    (located true t).filterMap (foundOutside search) = [] := by
  refine List.filterMap_eq_nil_iff.2 fun e he => ?_
  rw [foundOutside, if_pos (fst_of_mem_located t he)]

mutual

/-- A search that erasing does not change finds in an erased tree what it finds outside its
annotations. -/
lemma filterMap_preorder_erase (hsearch : ∀ t, search t.erase = search t) : (t : Tree) →
    t.erase.preorder.filterMap search = (located false t).filterMap (foundOutside search)
  | leaf u => rfl
  | node k ts => by
    have hself : foundOutside search (false, node k ts) = search (erase (node k ts)) :=
      (hsearch _).symm
    rw [located]
    split
    · rename_i hliteral
      rw [erase_of_isSome hliteral, preorder_node]
      simp [List.filterMap_cons, List.filterMap_map, Function.comp_def, foundOutside]
    · rename_i hliteral
      have herase := erase_node (Option.not_isSome_iff_eq_none.1 hliteral)
      rw [List.filterMap_cons, hself, herase, preorder_node, List.filterMap_cons,
        filterMap_preorderOf_eraseAll hsearch (annotations k ts) ts]

/-- It finds in erased siblings what it finds outside of annotations. -/
lemma filterMap_preorderOf_eraseAll (hsearch : ∀ t, search t.erase = search t) :
    (marks : List Bool) → (ts : List Tree) →
    (preorderOf (eraseAll marks ts)).filterMap search =
      (locatedAll false marks ts).filterMap (foundOutside search)
  | _, [] => rfl
  | marks, t :: ts => by
    rw [eraseAll, locatedAll, List.filterMap_append, Bool.false_or]
    cases hmark : marks.headD false with
    | true =>
      rw [if_pos rfl, filterMap_located_true, List.nil_append,
        filterMap_preorderOf_eraseAll hsearch marks.tail ts]
    | false =>
      rw [if_neg Bool.false_ne_true, preorderOf_cons, List.filterMap_append,
        filterMap_preorder_erase hsearch t, filterMap_preorderOf_eraseAll hsearch marks.tail ts]

end

end Walks

end Tree

end RouteAssets.Script
