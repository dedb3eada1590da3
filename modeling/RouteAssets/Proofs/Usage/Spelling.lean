import RouteAssets.Proofs.Script.Written
import RouteAssets.Usage

/-!
# Spellings of one declaration

A script declares by one call which dependencies it requests: by a call of a declaring function,
which may be imported under an alias, or of a component function whose options have a `deps`
property. The call **requests** the dependencies of a container (`Requests`) when this container
stands there, or a constant for it, in any wrappers.

* The container is found however it is given (`IsGivenBy.dereference?_eq`,
  `StandsFor.exists_options?_eq`), so such a call contributes what the container lists
  (`Requests.callTexts_eq`), and other calls contribute nothing (`callTexts_eq_nil`).
* An array lists its elements (`containerTexts_array`), an object the values that its names have in
  the end (`containerTexts_object`).

So all spellings come to the same list, if the keys of an object are **named** (`AreNamed`): each is
read as a name, and no two as the same. That is needed (`collect_eq_texts_iff`). Words and strings
are read as names, numbers are not, and an escape in a string is read by the rule for literals, by
which `x41` and `\x41` are one name.
-/

namespace RouteAssets.Usage

open RouteAssets.Script RouteAssets.Script.Tree

variable {root container options t u v call first : Tree} {name : String} {vocabulary : Vocabulary}

/-! ## Where a container stands -/

/-- A script imports a name under one of its own. -/
inductive Imports (root : Tree) (name : String) : String → Prop
  | specifier {statement imported word own : Tree} (hstatement : statement ∈ root.children)
      (himport : statement.isNode .importStatement = true)
      (hspecifier : node .importSpecifier [imported, word, own] ∈ statement.preorder)
      (himported : imported.isToken .identifier = true) (hname : imported.text = name)
      (hword : word.isWord "as" = true) (hown : own.isToken .identifier = true) :
      Imports root name own.text

/-- Is it an array or object literal? -/
def isContainer (t : Tree) : Bool := t.isNode .array || t.isNode .object

/-- A tree stands for another one: it is this one, or the name of a constant whose value this one
is, each in any wrappers. -/
inductive StandsFor (root t : Tree) : Tree → Prop
  | itself {u : Tree} (hu : t.StandsIn u) : StandsFor root t u
  | constant {name : String} {f u v : Tree} (hf : f.isToken .identifier = true)
      (hname : f.text = name) (hu : f.StandsIn u) (hconstant : root.IsConstant name v)
      (hv : t.StandsIn v) : StandsFor root t u

/-- A tree is given by the value of a property: the value stands for it, or is the shorthand of a
constant whose value it is. -/
inductive IsGivenBy (root t : Tree) : Tree → Prop
  | value {u : Tree} (hu : StandsFor root t u) : IsGivenBy root t u
  | shorthand {name : String} {u v : Tree} (hu : u.isToken .shorthandName = true)
      (hname : u.text = name) (hconstant : root.IsConstant name v) (hv : t.StandsIn v) :
      IsGivenBy root t u

/-- A call requests the dependencies of a container: it gives the container to a declaring function,
by its name or by an alias, or to a component function as the `deps` of its options. -/
inductive Requests (vocabulary : Vocabulary) (root container : Tree) : Tree → Prop
  | declaring {name : String} {first call : Tree} (hcall : Calls name first call)
      (hname : name ∈ vocabulary.declaring ∨
        ∃ imported ∈ vocabulary.declaring, Imports root imported name)
      (hfirst : StandsFor root container first) : Requests vocabulary root container call
  | component {name : String} {first call options v : Tree} (hcall : Calls name first call)
      (hname : name ∈ vocabulary.component) (hown : name ∉ localNames root vocabulary.declaring)
      (hfirst : StandsFor root options first) (hdeps : HasProperty "deps" v options)
      (hv : IsGivenBy root container v) : Requests vocabulary root container call

/-- Is it a call of a declaring function, or of a component function with a `deps` property in its
options? -/
def mayRequest (vocabulary : Vocabulary) (root t : Tree) : Bool :=
  t.calleeName?.any fun name =>
    (localNames root vocabulary.declaring).contains name ||
      (vocabulary.component.contains name &&
        (t.callArguments.head?.bind (options? root.constants)).any fun o =>
          (o.properties.get? "deps").isSome)

/-! ## What calls request -/

/-- The names of declaring functions, and the names under which these are imported, are local. -/
lemma mem_localNames {names : List String}
    (h : name ∈ names ∨ ∃ imported ∈ names, Imports root imported name) :
    name ∈ localNames root names := by
  rw [localNames, mem_distinct, List.mem_append]
  refine h.imp id ?_
  rintro ⟨imported, hnames, hstatement, himport, hspecifier, himported, rfl, hword, hown⟩
  rename_i statement imported word own
  refine List.mem_flatMap.2 ⟨_, List.mem_filter.2 ⟨hstatement, himport⟩, ?_⟩
  rw [walk_eq_preorder]
  refine List.mem_filterMap.2 ⟨_, hspecifier, ?_⟩
  have hkept : [imported, word, own].filter (fun t => !t.isWord "type" && !t.isWord "typeof") =
      [imported, word, own] := by
    have himported' := isWord_of_isToken himported rfl
    have hown' := isWord_of_isToken hown rfl
    have htype : word.isWord "type" = false := isWord_of_isWord hword (by decide)
    have htypeof : word.isWord "typeof" = false := isWord_of_isWord hword (by decide)
    simp [himported', hown', htype, htypeof]
  unfold aliasOf?
  simp only [isNode, beq_self_eq_true, if_true, children, hkept, List.contains_iff_mem, hnames]

/-- A container in wrappers is found, since it is no wrapper itself. -/
lemma unwrap_eq_of_isContainer (hcontainer : isContainer container = true)
    (h : container.StandsIn v) : v.unwrap = container := by
  cases container with
  | leaf u => cases hcontainer
  | node k ts => cases k <;> first | exact h.unwrap_eq rfl | cases hcontainer

/-- A container in wrappers stands for itself. -/
lemma dereference?_of_standsIn {constants : Table String Tree}
    (hcontainer : isContainer container = true) (h : container.StandsIn v) :
    dereference? constants v = some container := by
  rw [dereference?, unwrap_eq_of_isContainer hcontainer h]
  cases container with
  | leaf u => cases hcontainer
  | node k ts => rfl

/-- The name of a constant stands for the container in its value. -/
lemma dereference?_of_isConstant {f : Tree} (hcontainer : isContainer container = true)
    (hf : f.isToken .identifier = true ∨ f.isToken .shorthandName = true) (hname : f.text = name)
    (hu : f.StandsIn u) (hconstant : root.IsConstant name v) (hv : container.StandsIn v) :
    dereference? root.constants u = some container := by
  have hunwrap : u.unwrap = f := hf.elim (hu.unwrap_token · rfl) (hu.unwrap_token · rfl)
  have hvariable : f.variableName? = some name := by
    rw [variableName?, if_pos (Bool.or_eq_true _ _ ▸ hf), hname]
  rw [dereference?, hunwrap, hvariable]
  simp only [hconstant.get?_eq, Option.map_some, unwrap_eq_of_isContainer hcontainer hv]

/-- A container that a property gives is found. -/
lemma IsGivenBy.dereference?_eq (hcontainer : isContainer container = true)
    (h : IsGivenBy root container v) : dereference? root.constants v = some container := by
  obtain ⟨⟨hv⟩ | ⟨hf, hname, hu, hconstant, hv⟩⟩ | ⟨hu, hname, hconstant, hv⟩ := h
  · exact dereference?_of_standsIn hcontainer hv
  · exact dereference?_of_isConstant hcontainer (Or.inl hf) hname hu hconstant hv
  · exact dereference?_of_isConstant hcontainer (Or.inr hu) hname .bare hconstant hv

/-- What a container lists counts wherever it is given. -/
lemma containerTexts_eq_of_dereference? {constants : Table String Tree}
    (hcontainer : isContainer container = true) (h : dereference? constants v = some container) :
    containerTexts constants v = containerTexts constants container := by
  rw [containerTexts, containerTexts, h, dereference?_of_standsIn hcontainer .bare]

/-- Options are found, in the wrappers that their constant has. -/
lemma StandsFor.exists_options?_eq (hoptions : options.isNode .object = true)
    (h : StandsFor root options first) :
    ∃ o, options? root.constants first = some o ∧ options.StandsIn o := by
  cases h with
  | itself hu =>
    refine ⟨options, ?_, .bare⟩
    rw [options?, unwrap_eq_of_isContainer (by simp [isContainer, hoptions]) hu, if_neg]
    cases options with
    | leaf u => cases hoptions
    | node k ts => exact Bool.false_ne_true
  | constant hf hname hu hconstant hv =>
    refine ⟨_, ?_, hv⟩
    simp [options?, hu.unwrap_token hf rfl, hf, hname, hconstant.get?_eq]

/-- A call that requests the dependencies of a container contributes what the container lists. -/
lemma Requests.callTexts_eq (hcontainer : isContainer container = true)
    (h : Requests vocabulary root container call) :
    callTexts vocabulary (localNames root vocabulary.declaring) root.constants call =
      containerTexts root.constants container := by
  cases h with
  | declaring hcall hname hfirst =>
    obtain ⟨rest, harguments⟩ := hcall.exists_callArguments_eq
    have hlocal := mem_localNames hname
    rw [callTexts, hcall.calleeName?_eq, harguments]
    simp only [List.contains_iff_mem.2 hlocal, if_true]
    exact containerTexts_eq_of_dereference? hcontainer
      ((IsGivenBy.value hfirst).dereference?_eq hcontainer)
  | component hcall hname hown hfirst hdeps hv =>
    obtain ⟨rest, harguments⟩ := hcall.exists_callArguments_eq
    obtain ⟨o, hoptions, ho⟩ := hfirst.exists_options?_eq (by cases hdeps; rfl)
    rw [callTexts, hcall.calleeName?_eq, harguments]
    simp only [List.contains_iff_mem, hown, hname, if_true, if_false, hoptions, Option.bind_some,
      hdeps.get?_eq ho]
    exact containerTexts_eq_of_dereference? hcontainer (hv.dereference?_eq hcontainer)

/-- Other calls contribute nothing. -/
lemma callTexts_eq_nil (h : mayRequest vocabulary root t = false) :
    callTexts vocabulary (localNames root vocabulary.declaring) root.constants t = [] := by
  unfold mayRequest at h
  unfold callTexts
  split
  · rename_i name first rest hname harguments
    rw [hname, harguments, Option.any_some, List.head?_cons, Option.bind_some,
      Bool.or_eq_false_iff] at h
    rw [h.1, if_neg Bool.false_ne_true]
    split
    · rename_i hcomponent
      rw [hcomponent, Bool.true_and] at h
      cases hoptions : options? root.constants first with
      | none => rfl
      | some o =>
        rw [hoptions, Option.any_some, Option.isSome_eq_false_iff, Option.isNone_iff_eq_none] at h
        rw [Option.bind_some, h.2]
    · rfl
  · rfl

/-- A script whose only request is one call requests what the container of this call lists. -/
lemma collect_eq {source : Source} {before after : List Tree} (hroot : source.root? = some root)
    (hwalk : root.preorder = before ++ call :: after)
    (honly : ∀ t ∈ before ++ after, mayRequest vocabulary root t = false)
    (hcontainer : isContainer container = true) (hcall : Requests vocabulary root container call) :
    collect source vocabulary =
      distinct ((containerTexts root.constants container).filter (· != "")) := by
  have hnil : ∀ ts : List Tree, (∀ t ∈ ts, mayRequest vocabulary root t = false) →
      ts.flatMap (callTexts vocabulary (localNames root vocabulary.declaring) root.constants) =
        [] :=
    fun ts hts => List.flatMap_eq_nil_iff.2 fun t ht => callTexts_eq_nil (hts t ht)
  rw [List.forall_mem_append] at honly
  rw [collect, hroot]
  simp only [walk_eq_preorder, hwalk, List.flatMap_append, List.flatMap_cons, hnil _ honly.1,
    hnil _ honly.2, hcall.callTexts_eq hcontainer, List.nil_append, List.append_nil]

/-! ## What containers list -/

/-- An array lists its elements. -/
lemma containerTexts_array (constants : Table String Tree) (ts : List Tree) :
    containerTexts constants (node .array ts) = (ts.filter isNamed).map Tree.text := rfl

/-- Keys with values name these: every key is read as a name, and no two as the same. -/
structure AreNamed (items : List (Tree × Tree)) : Prop where
  isSome : ∀ item ∈ items, item.1.propertyName?.isSome = true
  nodup : (items.filterMap fun item => item.1.propertyName?).Nodup

section Object

variable {items : List (Tree × Tree)} {ts : List Tree}

/-- What an object defines: the names that its keys are read as, each with the value. -/
def named (items : List (Tree × Tree)) : List (String × Tree) :=
  items.filterMap fun item => item.1.propertyName?.map fun name => (name, item.2)

/-- The names without their values. -/
lemma map_fst_named (items : List (Tree × Tree)) :
    (named items).map Prod.fst = items.filterMap fun item => item.1.propertyName? := by
  simp [named, List.map_filterMap, Option.map_map, Function.comp_def]

/-- The values without their names, if all keys are read. -/
lemma map_snd_named (h : ∀ item ∈ items, item.1.propertyName?.isSome = true) :
    (named items).map Prod.snd = items.map Prod.snd := by
  induction items with
  | nil => rfl
  | cons item items ih =>
    obtain ⟨hitem, hitems⟩ := List.forall_mem_cons.1 h
    obtain ⟨name, hname⟩ := Option.isSome_iff_exists.1 hitem
    rw [named, List.filterMap_cons, hname]
    exact congrArg (item.2 :: ·) (ih hitems)

/-- An object of keys with values lists the values that the names have in the end. -/
lemma containerTexts_object (constants : Table String Tree)
    (h : List.Forall₂ (fun item t => IsPair item.1 item.2 t) items (ts.filter isNamed)) :
    containerTexts constants (node .object ts) =
      (Table.ofList (named items)).values.map Tree.text := by
  rw [named, ← filterMap_property?_eq h]
  rfl

/-- Values that are named are those that the names have in the end. -/
lemma AreNamed.values_eq (h : AreNamed items) :
    (Table.ofList (named items)).values = items.map Prod.snd := by
  rw [Table.values, Table.entries_ofList (by rw [map_fst_named]; exact h.nodup),
    map_snd_named h.isSome]

/-- If the names have as many values in the end as there are keys, these are named. -/
lemma areNamed_of_length_le (h : items.length ≤ (Table.ofList (named items)).values.length) :
    AreNamed items := by
  have hkeys : (Table.ofList (named items)).values.length =
      (distinct (items.filterMap fun item => item.1.propertyName?)).length := by
    rw [← map_fst_named, ← Table.keys_ofList, Table.keys, Table.values, List.length_map,
      List.length_map]
  rw [hkeys] at h
  have hread := List.length_filterMap_le (fun item : Tree × Tree => item.1.propertyName?) items
  have hnodup := nodup_of_length_le_distinct (hread.trans h)
  have hdistinct := length_distinct_le (items.filterMap fun item => item.1.propertyName?)
  exact ⟨List.filterMap_length_eq_length.1 (hread.antisymm (h.trans hdistinct)), hnodup⟩

end Object

/-- **However a declaration is spelled, it requests the expressions of its container.** Where a call
is all that a script requests with, it may be a call of a declaring function, under an alias or not,
or of a component function; the container and the options of a component may be constants, the
container by the shorthand, and all may stand in wrappers. An array then comes to the texts of its
elements at first occurrence, and so does an object to those of its values if its keys are named.
For texts that differ this is exact: an object with a key that is not read as a name, or with two
that are read as the same, requests less than the array of its values. -/
theorem collect_eq_texts_iff {source : Source} {before after : List Tree}
    (hroot : source.root? = some root) (hwalk : root.preorder = before ++ call :: after)
    (honly : ∀ t ∈ before ++ after, mayRequest vocabulary root t = false)
    (hcall : Requests vocabulary root container call) :
    (∀ ts, container = node .array ts → (∀ e ∈ ts.filter isNamed, e.text ≠ "") →
      collect source vocabulary = distinct ((ts.filter isNamed).map Tree.text)) ∧
    ∀ ts items, container = node .object ts →
      List.Forall₂ (fun item t => IsPair item.1 item.2 t) items (ts.filter isNamed) →
      (∀ item ∈ items, item.2.text ≠ "") →
      (AreNamed items →
        collect source vocabulary = distinct (items.map fun item => item.2.text)) ∧
      ((items.map fun item => item.2.text).Nodup →
        (collect source vocabulary = items.map (fun item => item.2.text) ↔ AreNamed items)) := by
  have hkept : ∀ texts : List String, (∀ s ∈ texts, s ≠ "") → texts.filter (· != "") = texts :=
    fun texts h => List.filter_eq_self.2 fun s hs => bne_iff_ne.2 (h s hs)
  refine ⟨?_, ?_⟩
  · rintro ts rfl htexts
    rw [collect_eq hroot hwalk honly rfl hcall, containerTexts_array,
      hkept _ (List.forall_mem_map.2 htexts)]
  · rintro ts items rfl hitems htexts
    have hcollect := collect_eq hroot hwalk honly rfl hcall
    rw [containerTexts_object _ hitems] at hcollect
    have hnamed : AreNamed items →
        collect source vocabulary = distinct (items.map fun item => item.2.text) := by
      intro h
      rw [hcollect, h.values_eq, List.map_map]
      exact congrArg distinct (hkept _ (List.forall_mem_map.2 htexts))
    refine ⟨hnamed, fun hnodup => ⟨fun h => areNamed_of_length_le ?_, fun h => ?_⟩⟩
    · -- as many texts are found as there are items, so as many values are left
      calc items.length = (collect source vocabulary).length := by rw [h, List.length_map]
        _ ≤ _ := by
          rw [hcollect]
          exact (length_distinct_le _).trans
            ((List.length_filter_le _ _).trans (List.length_map _).le)
    · rw [hnamed h]
      exact distinct_of_nodup hnodup

/-! ## Two scripts -/

section Scripts

/-- A name in a script of one line. -/
def nameToken (text : String) : Tree := leaf ⟨.identifier, "", text, 1⟩

/-- A mark in a script of one line. -/
def markToken (text : String) : Tree := leaf ⟨.punctuation, "", text, 1⟩

/-- An array of two names. -/
def twoNames : Tree :=
  node .array [markToken "[", nameToken "A", markToken ",", nameToken "B", markToken "]"]

/-- A call under an alias, with a constant in a wrapper. -/
def aliasCall : Tree :=
  node .call [nameToken "d", node .arguments
    [markToken "(", node .nonNull [nameToken "k", markToken "!"], markToken ")"]]

/-- The specifier of the alias. -/
def aliasSpecifier : Tree :=
  node .importSpecifier [nameToken "defineDeps", leaf ⟨.keyword, " ", "as", 1⟩,
    leaf ⟨.identifier, " ", "d", 1⟩]

/-- The statement that imports the alias. -/
def aliasImport : Tree :=
  node .importStatement
    [leaf ⟨.keyword, "", "import", 1⟩,
      node .importClause [node .namedImports [markToken "\x7b", aliasSpecifier, markToken "\x7d"]],
      node .fromClause [leaf ⟨.keyword, "", "from", 1⟩, leaf ⟨.string, "", "'x'", 1⟩],
      markToken ";"]

/-- The declarator of the constant. -/
def namesDeclarator : Tree :=
  node .variableDeclarator
    [leaf ⟨.identifier, " ", "k", 1⟩, node .initializer [markToken "=", twoNames]]

/-- A script that requests two dependencies by an array. -/
def aliasScript : Tree :=
  node .program [aliasImport,
    node .lexicalDeclaration [leaf ⟨.keyword, "", "const", 1⟩, namesDeclarator, markToken ";"],
    node .expressionStatement [aliasCall]]

/-- A key with a value. -/
def keyValue (key v : Tree) : Tree := node .pair [key, markToken ":", v]

/-- An object of two names, the first one under a number. -/
def numberedNames : Tree :=
  node .object [markToken "\x7b", keyValue (leaf ⟨.number, "", "0", 1⟩) (nameToken "A"),
    markToken ",", keyValue (leaf ⟨.propertyName, "", "b", 1⟩) (nameToken "B"), markToken "\x7d"]

/-- The options of a component that requests two dependencies by an object. -/
def numberedOptions : Tree :=
  node .object [markToken "\x7b", keyValue (leaf ⟨.propertyName, "", "deps", 1⟩) numberedNames,
    markToken "\x7d"]

/-- A call with these options. -/
def numberedCall : Tree :=
  node .call [nameToken "defineComponent",
    node .arguments [markToken "(", numberedOptions, markToken ")"]]

/-- A script that requests two dependencies by an object with a number for a key. -/
def numberedScript : Tree := node .program [node .expressionStatement [numberedCall]]

/-- The two scripts as they are read. -/
lemma root?_scripts :
    (Source.read .typescript "import\x7bdefineDeps as d\x7dfrom'x';const k=[A,B];d(k!)").root? =
      some aliasScript ∧
    (Source.read .typescript "defineComponent(\x7bdeps:\x7b0:A,b:B\x7d\x7d)").root? =
      some numberedScript := by
  decide +kernel

/-- Trees that define a name with a value or nothing agree on the value. -/
lemma value_unique {define : Tree → Option (String × Tree)} {ts : List Tree}
    (h : ∀ t ∈ ts, define t = some (name, v) ∨ define t = none) :
    ∀ t ∈ ts, ∀ v', define t = some (name, v') → v' = v := by
  intro t ht v' hv'
  rcases h t ht with hdefines | hnone
  · rw [hdefines] at hv'
    cases hv'
    rfl
  · rw [hnone] at hv'
    cases hv'

/-- The array is requested under an alias, by a constant in a wrapper. -/
lemma requests_aliasCall : Requests .standard aliasScript twoNames aliasCall := by
  have hdeclares : Declares "k" twoNames namesDeclarator :=
    @Declares.declarator _ _ _ [] [markToken "="] [] rfl rfl (by simp)
  have hconstant : aliasScript.IsConstant "k" twoNames :=
    ⟨⟨namesDeclarator, by decide, hdeclares⟩, value_unique (by decide +kernel)⟩
  have himport : Imports aliasScript "defineDeps" "d" :=
    .specifier (.head _) rfl (by decide +kernel : aliasSpecifier ∈ aliasImport.preorder)
      rfl rfl rfl rfl
  have hwrapped : (nameToken "k").StandsIn (node .nonNull [nameToken "k", markToken "!"]) :=
    @StandsIn.wrapped _ _ [] _ _ rfl (by simp) .bare
  have hcall : Calls "d" (node .nonNull [nameToken "k", markToken "!"]) aliasCall :=
    @Calls.call _ _ _ _ [] _ _ [] rfl rfl .bare (by simp) rfl
  exact .declaring hcall (Or.inr ⟨"defineDeps", by decide, himport⟩)
    (.constant rfl rfl hwrapped hconstant .bare)

/-- The object is requested by the options of a component. -/
lemma requests_numberedCall : Requests .standard numberedScript numberedNames numberedCall := by
  have hdeps : HasProperty "deps" numberedNames numberedOptions :=
    .object ⟨keyValue (leaf ⟨.propertyName, "", "deps", 1⟩) numberedNames, by simp, rfl⟩
      (value_unique (by decide +kernel))
  have hcall : Calls "defineComponent" numberedOptions numberedCall :=
    @Calls.call _ _ _ _ [] _ _ [] rfl rfl .bare (by simp) rfl
  exact .component hcall (by decide) (by decide) (.itself .bare) hdeps (.value (.itself .bare))

/-- An array that is a constant, given under an alias, requests both dependencies; an object
requests less than its two values when one of them stands under a number. -/
theorem collect_eq_texts_iff_of_number :
    collect (Source.read .typescript
      "import\x7bdefineDeps as d\x7dfrom'x';const k=[A,B];d(k!)") .standard = ["A", "B"] ∧
    collect (Source.read .typescript "defineComponent(\x7bdeps:\x7b0:A,b:B\x7d\x7d)") .standard ≠
      ["A", "B"] := by
  have harrayWalk : aliasScript.preorder =
      aliasScript.preorder.take 29 ++ aliasCall :: aliasScript.preorder.drop 30 := by decide +kernel
  have hobjectWalk : numberedScript.preorder =
      numberedScript.preorder.take 2 ++ numberedCall :: numberedScript.preorder.drop 3 := by
    decide +kernel
  obtain ⟨harray, -⟩ := collect_eq_texts_iff root?_scripts.1 harrayWalk (by decide +kernel)
    requests_aliasCall
  obtain ⟨-, hobject⟩ := collect_eq_texts_iff root?_scripts.2 hobjectWalk (by decide +kernel)
    requests_numberedCall
  have hitems : List.Forall₂ (fun item t => IsPair item.1 item.2 t)
      [(leaf ⟨.number, "", "0", 1⟩, nameToken "A"),
        (leaf ⟨.propertyName, "", "b", 1⟩, nameToken "B")]
      (numberedNames.children.filter isNamed) :=
    .cons (@IsPair.pair _ _ [markToken ":"]) (.cons (@IsPair.pair _ _ [markToken ":"]) .nil)
  refine ⟨harray _ rfl (by decide), fun h => ?_⟩
  have hnamed := ((hobject _ _ rfl hitems (by decide)).2 (by decide)).1 h
  exact absurd (hnamed.isSome _ (.head _)) (by decide)

end Scripts

end RouteAssets.Usage
