import RouteAssets.Proofs.Script.Query

/-!
# What is written in a script

The questions to a syntax tree look through wrappers and search among children. Here is said,
without these searches, how a script writes what they answer, one relation for each question:

* a tree **stands in** wrappers (`StandsIn`), and is found there (`StandsIn.unwrap_eq`);
* a **call** of a plain function has a name and a first argument (`Calls`);
* a declarator **declares** a name with a value (`Declares`), and a value is that of a **constant**
  when the declarators of the top level agree on it (`IsConstant.get?_eq`);
* an object literal consists of keys with values (`IsPair`, `filterMap_property?_eq`), and has a
  property when its items agree on the value (`HasProperty.get?_eq`).

Trees can be compared, so that what a parser makes of a short script can be stated and evaluated.
-/

namespace RouteAssets.Script.Tree

/-! ## Comparing trees -/

mutual

/-- Are two trees the same? -/
def decideEq : (t u : Tree) → Decidable (t = u)
  | leaf a, leaf b => decidable_of_iff (a = b) (by simp)
  | leaf _, node _ _ => isFalse nofun
  | node _ _, leaf _ => isFalse nofun
  | node k ts, node k' us =>
    have := decideEqAll ts us
    decidable_of_iff (k = k' ∧ ts = us) (by simp)

/-- Are two lists of siblings the same? -/
def decideEqAll : (ts us : List Tree) → Decidable (ts = us)
  | [], [] => isTrue rfl
  | [], _ :: _ => isFalse nofun
  | _ :: _, [] => isFalse nofun
  | t :: ts, u :: us =>
    have := decideEq t u
    have := decideEqAll ts us
    decidable_of_iff (t = u ∧ ts = us) (by simp)

end

instance : DecidableEq Tree := decideEq

variable {root t u v : Tree} {ts : List Tree} {name : String}

/-! ## Wrappers -/

/-- A tree stands in any number of transparent wrappers, each time as the first named child. -/
inductive StandsIn (t : Tree) : Tree → Prop
  | bare : StandsIn t t
  | wrapped {k : NodeKind} {before after : List Tree} {u : Tree} (hk : k.isTransparent = true)
      (hbefore : ∀ b ∈ before, b.isNamed = false) (hu : StandsIn t u) :
      StandsIn t (node k (before ++ u :: after))

/-- The first named sibling is looked into. -/
lemma unwrapFirst_append (whole : Tree) {before : List Tree}
    (hbefore : ∀ b ∈ before, b.isNamed = false) (hu : u.isNamed = true) (after : List Tree) :
    unwrapFirst whole (before ++ u :: after) = u.unwrap := by
  induction before with
  | nil => rw [List.nil_append, unwrapFirst, if_pos hu]
  | cons b before ih =>
    obtain ⟨hb, hbefore⟩ := List.forall_mem_cons.1 hbefore
    rw [List.cons_append, unwrapFirst, if_neg (by simp [hb]), ih hbefore]

/-- What stands in wrappers is named if it is named without them. -/
lemma StandsIn.isNamed (h : StandsIn t u) (ht : t.isNamed = true) : u.isNamed = true := by
  cases h with
  | bare => exact ht
  | wrapped => rfl

/-- Behind its wrappers a tree is what it is without them. -/
lemma StandsIn.unwrap_eq (h : StandsIn t u) (ht : t.isNamed = true) : u.unwrap = t.unwrap := by
  induction h with
  | bare => rfl
  | wrapped hk hbefore hu ih =>
    rw [unwrap, if_pos hk, unwrapFirst_append _ hbefore (hu.isNamed ht), ih]

/-- A token is not looked into. -/
lemma unwrap_of_isToken {k : TokenKind} (h : t.isToken k = true) : t.unwrap = t := by
  cases t with
  | leaf u => rfl
  | node k' ts => cases h

/-- A token is named if its kind is. -/
lemma isNamed_of_isToken {k : TokenKind} (h : t.isToken k = true) (hk : k.isNamed = true) :
    t.isNamed = true := by
  cases t with
  | leaf u =>
    rw [isToken, beq_iff_eq] at h
    rwa [isNamed, ← h]
  | node k' ts => cases h

/-- A token of a named kind is no word. -/
lemma isWord_of_isToken {k : TokenKind} (h : t.isToken k = true) (hk : k.isNamed = true)
    (w : String) : t.isWord w = false := by
  cases t with
  | leaf u =>
    rw [isToken, beq_iff_eq] at h
    rw [isWord, ← h, hk]
    rfl
  | node k' ts => cases h

/-- A word is not another one. -/
lemma isWord_of_isWord {w w' : String} (h : t.isWord w = true) (hw : w ≠ w') :
    t.isWord w' = false := by
  cases t with
  | leaf u =>
    rw [isWord, Bool.and_eq_true, beq_iff_eq] at h
    simp [isWord, h.2, hw]
  | node k' ts => cases h

/-- A token in wrappers is found. -/
lemma StandsIn.unwrap_token {k : TokenKind} (h : StandsIn t u) (ht : t.isToken k = true)
    (hk : k.isNamed = true) : u.unwrap = t :=
  (h.unwrap_eq (isNamed_of_isToken ht hk)).trans (unwrap_of_isToken ht)

/-! ## Calls -/

/-- A call of a plain function, by its name in any wrappers, with a first argument. -/
inductive Calls (name : String) (first : Tree) : Tree → Prop
  | call {callee f : Tree} {between ts rest after : List Tree} (hf : f.isToken .identifier = true)
      (hname : f.text = name) (hcallee : StandsIn f callee)
      (hbetween : ∀ t ∈ between, t.isArgumentList = false)
      (hts : ts.filter isNamed = first :: rest) :
      Calls name first (node .call (callee :: (between ++ node .arguments ts :: after)))

section Calls

variable {first call : Tree}

/-- The name of the function that is called. -/
lemma Calls.calleeName?_eq (h : Calls name first call) : call.calleeName? = some name := by
  obtain ⟨hf, hname, hcallee, -, -⟩ := h
  have hunwrap := hcallee.unwrap_token hf rfl
  rw [calleeName?, callee?]
  simp only [hunwrap, hf, if_true, hname]

/-- The first argument of a call comes first. -/
lemma Calls.exists_callArguments_eq (h : Calls name first call) :
    ∃ rest, call.callArguments = first :: rest := by
  obtain ⟨-, -, -, hbetween, hts⟩ := h
  rename_i between ts rest after
  refine ⟨rest, ?_⟩
  have hfind : (between ++ node .arguments ts :: after).find? isArgumentList =
      some (node .arguments ts) :=
    List.find?_eq_some_iff_append.2 ⟨rfl, between, after, rfl, by simpa using hbetween⟩
  rw [callArguments, hfind]
  exact hts

end Calls

/-! ## Constants -/

/-- A declarator of a name, with an initializer that ends in a value. -/
inductive Declares (name : String) (v : Tree) : Tree → Prop
  | declarator {f : Tree} {between before after : List Tree} (hf : f.isToken .identifier = true)
      (hname : f.text = name) (hbetween : ∀ t ∈ between, t.isNode .initializer = false) :
      Declares name v (node .variableDeclarator
        (f :: (between ++ node .initializer (before ++ [v]) :: after)))

/-- What a declarator defines. -/
lemma Declares.declaredValue?_eq (h : Declares name v t) : t.declaredValue? = some (name, v) := by
  obtain ⟨hf, hname, hbetween⟩ := h
  rename_i f between before after
  have hfind : (between ++ node .initializer (before ++ [v]) :: after).find? (isNode .initializer) =
      some (node .initializer (before ++ [v])) :=
    List.find?_eq_some_iff_append.2 ⟨rfl, between, after, rfl, by simpa using hbetween⟩
  rw [declaredValue?, hfind]
  simp [hf, hname, children]

/-- The declarators of the declarations at the top level, exported ones included. -/
def declarators (root : Tree) : List Tree :=
  root.children.flatMap fun s => (s.declaration?.map children).getD []

/-- A value is that of a top-level constant: a declarator gives it to the name, and none gives it
another one. -/
structure IsConstant (root : Tree) (name : String) (v : Tree) : Prop where
  exists_declares : ∃ d ∈ root.declarators, Declares name v d
  unique : ∀ d ∈ root.declarators, ∀ v', d.declaredValue? = some (name, v') → v' = v

/-- The constants of a script are what its declarators define. -/
lemma constants_eq (root : Tree) :
    root.constants = Table.ofList (root.declarators.filterMap declaredValue?) := by
  rw [constants, declarators, List.filterMap_flatMap]
  congr 2
  funext s
  cases s.declaration? <;> rfl

/-- A constant is found by its name. -/
lemma IsConstant.get?_eq (h : IsConstant root name v) : root.constants.get? name = some v := by
  obtain ⟨d, hd, hdeclares⟩ := h.exists_declares
  rw [constants_eq]
  refine Table.get?_ofList_of_unique
    (List.mem_filterMap.2 ⟨d, hd, hdeclares.declaredValue?_eq⟩) fun v' hv' => ?_
  obtain ⟨d', hd', hdefines⟩ := List.mem_filterMap.1 hv'
  exact h.unique d' hd' v' hdefines

/-! ## Literals -/

/-- An item of an object literal with a key and a value. -/
inductive IsPair (key v : Tree) : Tree → Prop
  | pair {between : List Tree} : IsPair key v (node .pair (key :: (between ++ [v])))

/-- An item defines the name that its key is read as. -/
lemma IsPair.property?_eq {key : Tree} (h : IsPair key v t) :
    t.property? = key.propertyName?.map fun name => (name, v) := by
  obtain ⟨⟩ := h
  simp [property?_pair]

/-- Tokens that are not named define nothing. -/
lemma property?_of_not_isNamed (h : t.isNamed = false) : t.property? = none := by
  cases t with
  | leaf u =>
    rw [property?, if_neg]
    rintro hkind
    rw [beq_iff_eq] at hkind
    rw [isNamed, hkind] at h
    cases h
  | node k ts => cases h

/-- Unnamed siblings define nothing. -/
lemma filterMap_property?_filter (ts : List Tree) :
    (ts.filter isNamed).filterMap property? = ts.filterMap property? := by
  induction ts with
  | nil => rfl
  | cons t ts ih =>
    by_cases ht : t.isNamed = true
    · rw [List.filter_cons_of_pos ht, List.filterMap_cons, List.filterMap_cons, ih]
    · have hnone := property?_of_not_isNamed (Bool.not_eq_true _ ▸ ht)
      rw [List.filter_cons_of_neg ht, List.filterMap_cons_none hnone, ih]

/-- The items of an object literal that consists of keys with values define the names that the keys
are read as. -/
lemma filterMap_property?_eq {items : List (Tree × Tree)}
    (h : List.Forall₂ (fun item t => IsPair item.1 item.2 t) items (ts.filter isNamed)) :
    ts.filterMap property? =
      items.filterMap fun item => item.1.propertyName?.map fun name => (name, item.2) := by
  rw [← filterMap_property?_filter]
  generalize ts.filter isNamed = pairs at h
  induction h with
  | nil => rfl
  | cons hpair _ ih => rw [List.filterMap_cons, List.filterMap_cons, hpair.property?_eq, ih]

/-- A property of an object literal: an item defines it, and none gives its name another value. -/
inductive HasProperty (name : String) (v : Tree) : Tree → Prop
  | object {ts : List Tree} (hexists : ∃ t ∈ ts, t.property? = some (name, v))
      (hunique : ∀ t ∈ ts, ∀ v', t.property? = some (name, v') → v' = v) :
      HasProperty name v (node .object ts)

/-- A property is found by its name, in any wrappers of the object. -/
lemma HasProperty.get?_eq (h : HasProperty name v t) (ht : StandsIn t u) :
    u.properties.get? name = some v := by
  obtain ⟨⟨item, hitem, hdefines⟩, hunique⟩ := h
  rename_i ts
  have hunwrap : u.unwrap = node .object ts := ht.unwrap_eq rfl
  rw [properties, hunwrap]
  refine Table.get?_ofList_of_unique (List.mem_filterMap.2 ⟨item, hitem, hdefines⟩) fun v' hv' => ?_
  obtain ⟨item', hitem', hdefines'⟩ := List.mem_filterMap.1 hv'
  exact hunique item' hitem' v' hdefines'

end RouteAssets.Script.Tree
