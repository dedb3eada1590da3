import RouteAssets.Proofs.Imports.Precheck
import RouteAssets.Proofs.Table

/-!
# What a collection asks, and what it makes of the answers

A resolver that keeps a **log** (`Resolver.logged`) shows what it is asked and what it answers, and
the log does not show to those who ask (`run_logged_askAll`). For a script that is walked:

* **Places** (`pairwise_importCalls`): the walk meets the `import` calls in the order of the text.
* **Questions** (`asks_heard`): each literal specifier is asked for once, in the order of the first
  calls, on behalf of the module without its query.
* **Targets** (`mem_targets_iff`): the names that are answered, if they are not empty, without their
  queries.
* **Both together** (`collectDynamic_exact`): the targets of two collections in which only the answer
  to one specifier is another one differ at most by what this specifier is answered. With fixed
  answers the log is what they say (`heard_of_settles`).
-/

namespace RouteAssets

open RouteAssets.Script RouteAssets.Text

/-! ## Logs -/

/-- A question to a resolver, and what it answers. -/
structure Exchange where
  specifier : String
  importer : ModuleId
  answer : Answer
  deriving DecidableEq, Repr

/-- An answer names a module: the name is not empty, and the module is the name without its query. -/
def Answer.Names (a : Answer) (m : ModuleId) : Prop :=
  ∃ id, a = .found id ∧ id ≠ "" ∧ m = id.withoutQuery

/-- The resolver that also keeps a log. -/
def Resolver.logged {σ : Type} (resolve : Resolver σ) : Resolver (σ × List Exchange) :=
  fun specifier importer s =>
    let (answer, next) := (resolve specifier importer).run s.1
    (answer, next, s.2 ++ [{ specifier, importer, answer }])

section Logs

variable {σ : Type} {resolve : Resolver σ} {importer : ModuleId}

/-- The module that an answer names. -/
lemma Answer.module?_eq_some_iff {a : Answer} {m : ModuleId} : a.module? = some m ↔ a.Names m := by
  unfold Answer.module? Answer.Names
  rcases a with id | - | -
  · by_cases hid : id = "" <;> simp [hid, eq_comm (b := m)]
  · simp
  · simp

/-- The first question, and then the others. -/
lemma run_askAll_cons (x : String) (xs : List String) (s : σ) :
    (askAll resolve importer (x :: xs)).run s =
      (((resolve x importer).run s).1 ::
          ((askAll resolve importer xs).run ((resolve x importer).run s).2).1,
        ((askAll resolve importer xs).run ((resolve x importer).run s).2).2) := by
  rw [askAll, List.mapM_cons]
  rfl

/-- Every question is answered. -/
lemma length_askAll (specifiers : List String) (s : σ) :
    ((askAll resolve importer specifiers).run s).1.length = specifiers.length := by
  induction specifiers generalizing s with
  | nil => rfl
  | cons x xs ih => rw [run_askAll_cons, List.length_cons, List.length_cons, ih]

/-- Questions one after another: the answers are those without a log, and the log has each of them
with its question. -/
lemma run_logged_askAll (specifiers : List String) (s : σ) (log : List Exchange) :
    (askAll resolve.logged importer specifiers).run (s, log) =
      (((askAll resolve importer specifiers).run s).1,
        ((askAll resolve importer specifiers).run s).2,
        log ++ (specifiers.zip ((askAll resolve importer specifiers).run s).1).map
          fun x => ⟨x.1, importer, x.2⟩) := by
  induction specifiers generalizing s log with
  | nil => rw [List.zip_nil_left, List.map_nil, List.append_nil]; rfl
  | cons x xs ih =>
    have hstep : (resolve.logged x importer).run (s, log) = (((resolve x importer).run s).1,
        ((resolve x importer).run s).2, log ++ [⟨x, importer, ((resolve x importer).run s).1⟩]) := rfl
    rw [run_askAll_cons, run_askAll_cons, hstep, ih]
    simp

end Logs

/-! ## Where the calls stand -/

namespace Script.Tree

/-- The literal specifiers of the `import` calls, each with the number of tokens in front of the
call. -/
def importCalls (root : Tree) : List (Nat × String) :=
  (placed 0 root).filterMap fun e => e.2.importSpecifier?.map fun s => (e.1, s)

/-- Without their places these are the specifiers that the walk finds. -/
lemma map_snd_importCalls (root : Tree) :
    root.importCalls.map Prod.snd = root.preorder.filterMap importSpecifier? := by
  rw [importCalls, List.map_filterMap, ← map_snd_placed 0 root, List.filterMap_map]
  refine List.filterMap_congr fun e _ => ?_
  rw [Option.map_map]
  exact Option.map_id'

/-- An `import` call starts with the word alone. -/
lemma exists_children_of_isImportCall {t : Tree} (h : t.isImportCall = true) :
    ∃ u ts, t = node .call (leaf u :: ts) := by
  unfold isImportCall callee? at h
  split at h
  · rename_i c ts
    cases c with
    | leaf u => exact ⟨u, ts, rfl⟩
    | node k us => cases h
  · cases h

mutual

/-- Of two `import` calls in a tree the walk meets the first one first. -/
lemma pairwise_placed (n : Nat) : (t : Tree) → (placed n t).Pairwise fun e e' =>
    e.2.isImportCall = true → e'.2.isImportCall = true → e.1 < e'.1
  | leaf u => List.pairwise_singleton _ _
  | node k ts => by
    rw [placed, List.pairwise_cons]
    refine ⟨fun e' he' hcall hcall' => ?_, pairwise_placedOf n ts⟩
    -- the word `import` stands in front of all calls inside
    obtain ⟨u, us, hnode⟩ := exists_children_of_isImportCall hcall
    cases hnode
    rw [placedOf] at he'
    rcases List.mem_append.1 he' with hword | hrest
    · rw [placed, List.mem_singleton] at hword
      rw [hword] at hcall'
      cases hcall'
    · obtain ⟨before, -, -, hplace⟩ := exists_tokens_eq_of_mem_placedOf us hrest
      rw [hplace]
      simp only [tokens, List.length_singleton]
      omega

/-- Of two `import` calls among siblings the walk meets the first one first. -/
lemma pairwise_placedOf (n : Nat) : (ts : List Tree) → (placedOf n ts).Pairwise fun e e' =>
    e.2.isImportCall = true → e'.2.isImportCall = true → e.1 < e'.1
  | [] => List.Pairwise.nil
  | t :: ts => by
    rw [placedOf, List.pairwise_append]
    refine ⟨pairwise_placed n t, pairwise_placedOf _ ts, fun e he e' he' hcall _ => ?_⟩
    obtain ⟨before, after, htokens, hplace⟩ := exists_tokens_eq_of_mem_placed t he
    obtain ⟨before', -, -, hplace'⟩ := exists_tokens_eq_of_mem_placedOf ts he'
    obtain ⟨u, us, hnode⟩ := exists_children_of_isImportCall hcall
    have hlength := congrArg List.length htokens
    simp only [hnode, tokens, tokensOf, List.length_append, List.length_singleton] at hlength
    omega

end

/-- The literal `import` calls are met in the order of the text. -/
lemma pairwise_importCalls (root : Tree) : root.importCalls.Pairwise fun c c' => c.1 < c'.1 := by
  have hcall : ∀ {e : Nat × Tree} {c : Nat × String},
      (e.2.importSpecifier?.map fun s => (e.1, s)) = some c →
        e.2.isImportCall = true ∧ c.1 = e.1 := by
    intro e c h
    obtain ⟨s, hs, rfl⟩ := Option.map_eq_some_iff.1 h
    refine ⟨?_, rfl⟩
    by_contra hnot
    rw [importSpecifier?, if_neg hnot] at hs
    cases hs
  refine (pairwise_placed 0 root).filterMap _ fun e e' h c hc c' hc' => ?_
  obtain ⟨he, hplace⟩ := hcall hc
  obtain ⟨he', hplace'⟩ := hcall hc'
  rw [hplace, hplace']
  exact h he he'

/-- Of two specifiers that the walk finds, the first call of the one found first stands in front of
all calls of the other. -/
lemma pairwise_distinct_importCalls (root : Tree) :
    (distinct (root.importCalls.map Prod.snd)).Pairwise fun x y =>
      ∃ place, (place, x) ∈ root.importCalls ∧
        ∀ place', (place', y) ∈ root.importCalls → place < place' := by
  refine ((isFirstSeen_distinct _).ordered.and (nodup_distinct _)).imp ?_
  rintro x y ⟨⟨before, after, hsplit, hbefore⟩, hne⟩
  obtain ⟨calls, rest, hcalls, rfl, hrest⟩ := List.map_eq_append_iff.1 hsplit
  obtain ⟨⟨place, _⟩, later, rfl, rfl, rfl⟩ := List.map_eq_cons_iff.1 hrest
  have hordered := root.pairwise_importCalls
  rw [hcalls] at hordered ⊢
  refine ⟨place, by simp, fun place' h => ?_⟩
  rcases List.mem_append.1 h with h | h
  · exact absurd (List.mem_map_of_mem (f := Prod.snd) h) hbefore
  · rcases List.mem_cons.1 h with h | h
    · exact absurd (congrArg Prod.snd h).symm hne
    · exact (List.pairwise_cons.1 (List.pairwise_append.1 hordered).2.1).1 _ h

end Script.Tree

namespace Imports

/-! ## Questions -/

/-- What a walk over a script asks on behalf of an importer: each literal specifier of an `import`
call once, and in front of it what is called before all calls with it. -/
structure Asks (root : Tree) (importer : ModuleId) (log : List Exchange) : Prop where
  specifiers : ∀ x, x ∈ log.map Exchange.specifier ↔
    ∃ t ∈ root.preorder, t.importSpecifier? = some x
  once : (log.map Exchange.specifier).Nodup
  importers : ∀ e ∈ log, e.importer = importer
  inOrder : log.Pairwise fun e e' => ∃ place, (place, e.specifier) ∈ root.importCalls ∧
    ∀ place', (place', e'.specifier) ∈ root.importCalls → place < place'

/-- The literal specifiers of the `import` calls in a tree, each where it occurs first. -/
def literalSpecifiers (root : Tree) : List String :=
  distinct (root.preorder.filterMap Tree.importSpecifier?)

/-- The log of a collection from a state. -/
def heard {σ : Type} (resolve : Resolver σ) (source : Source) (module : ModuleId) (globs : Bool)
    (s : σ) : List Exchange :=
  ((collectDynamic resolve.logged source module globs).run (s, [])).2.2

/-- The targets of a collection from a state. -/
def targets {σ : Type} (resolve : Resolver σ) (source : Source) (module : ModuleId) (globs : Bool)
    (s : σ) : List ModuleId :=
  ((collectDynamic resolve source module globs).run s).1.1

section Collection

variable {σ : Type} (resolve : Resolver σ) {source : Source} {root : Tree}
  (hroot : source.root? = some root) (htext : hasDynamicSyntax source.text = true)
  (module : ModuleId) (globs : Bool) (s : σ)

include hroot htext

/-- A collection asks for the specifiers of its walk, and what follows depends on the answers
alone. -/
lemma collectDynamic_eq : collectDynamic resolve source module globs = do
    let answers ← askAll resolve module.withoutQuery (literalSpecifiers root)
    return (dynamicTargets answers, (dynamicSpecifiers root module.withoutQuery globs).2 ++
      answerNotices module.withoutQuery (literalSpecifiers root) answers) := by
  unfold collectDynamic
  rw [hroot, literalSpecifiers, ← dynamicSpecifiers_eq root module.withoutQuery globs]
  simp only [htext, if_true]

/-- The log of a collection has its questions with the answers to them. -/
lemma heard_eq : heard resolve source module globs s =
    ((literalSpecifiers root).zip
      ((askAll resolve module.withoutQuery (literalSpecifiers root)).run s).1).map
        fun x => ⟨x.1, module.withoutQuery, x.2⟩ := by
  unfold heard
  rw [collectDynamic_eq resolve.logged hroot htext, StateT.run_bind, run_logged_askAll]
  rfl

/-- The log does not show. -/
lemma run_logged_collectDynamic : (collectDynamic resolve.logged source module globs).run (s, []) =
    (((collectDynamic resolve source module globs).run s).1,
      ((collectDynamic resolve source module globs).run s).2,
      heard resolve source module globs s) := by
  unfold heard
  rw [collectDynamic_eq resolve.logged hroot htext, collectDynamic_eq resolve hroot htext,
    StateT.run_bind, run_logged_askAll]
  rfl

/-- Each literal specifier is asked for once, in the order of the first calls. -/
lemma asks_heard : Asks root module.withoutQuery (heard resolve source module globs s) := by
  have hlog := heard_eq resolve hroot htext module globs s
  have hspecifiers : (heard resolve source module globs s).map Exchange.specifier =
      literalSpecifiers root := by
    rw [hlog, List.map_map]
    exact List.map_fst_zip (Nat.le_of_eq (length_askAll _ s).symm)
  refine ⟨fun x => ?_, ?_, fun e he => ?_, ?_⟩
  · rw [hspecifiers, literalSpecifiers, mem_distinct, List.mem_filterMap]
  · rw [hspecifiers]
    exact nodup_distinct _
  · rw [hlog] at he
    obtain ⟨_, -, rfl⟩ := List.mem_map.1 he
    rfl
  · have hordered := root.pairwise_distinct_importCalls
    rw [Tree.map_snd_importCalls, ← literalSpecifiers, ← hspecifiers] at hordered
    exact List.pairwise_map.1 hordered

/-- The targets are what the answers name. -/
lemma mem_targets_iff {m : ModuleId} : m ∈ targets resolve source module globs s ↔
    ∃ e ∈ heard resolve source module globs s, e.answer.Names m := by
  have hanswers : (heard resolve source module globs s).map Exchange.answer =
      ((askAll resolve module.withoutQuery (literalSpecifiers root)).run s).1 := by
    rw [heard_eq resolve hroot htext, List.map_map]
    exact List.map_snd_zip (Nat.le_of_eq (length_askAll _ s))
  have htargets : targets resolve source module globs s =
      dynamicTargets ((heard resolve source module globs s).map Exchange.answer) := by
    rw [hanswers, targets, collectDynamic_eq resolve hroot htext]
    rfl
  rw [htargets, dynamicTargets, mem_distinct, List.mem_filterMap]
  simp only [List.mem_map, exists_exists_and_eq_and, Answer.module?_eq_some_iff]

/-- With a resolver that follows fixed answers the log is what they say. -/
lemma heard_of_settles {good : σ → Prop} {answer : String → ModuleId → Answer}
    (h : ∀ x m, Settles good (resolve x m) (answer x m)) (hs : good s) :
    heard resolve source module globs s = (literalSpecifiers root).map fun x =>
      ⟨x, module.withoutQuery, answer x module.withoutQuery⟩ := by
  have hzip := List.zip_map' (f := id) (g := fun x => answer x module.withoutQuery)
    (l := literalSpecifiers root)
  rw [List.map_id] at hzip
  rw [heard_eq resolve hroot htext, (settles_askAll h _ _ s hs).1, hzip, List.map_map]
  rfl

end Collection

/-! ## Collections -/

/-- **What a collection of dynamic imports asks and answers.** Take a script that is walked, and any
resolver. A log does not change its collection. Each literal specifier of an `import` call in the
tree is asked for once, on behalf of the module without its query, and a specifier in front of
another one is the one that is called first. The targets are the names that are answered, if they
are not empty, without their queries. When two resolvers answer alike to all specifiers but one, a
target that only the first one leads to is what it answers to this specifier. -/
theorem collectDynamic_exact {source : Source} {root : Tree} (hroot : source.root? = some root)
    (htext : hasDynamicSyntax source.text = true) (module : ModuleId) (globs : Bool) :
    (∀ {σ : Type} (resolve : Resolver σ) (s : σ),
      let log := heard resolve source module globs s
      (collectDynamic resolve.logged source module globs).run (s, []) =
          (((collectDynamic resolve source module globs).run s).1,
            ((collectDynamic resolve source module globs).run s).2, log) ∧
        Asks root module.withoutQuery log ∧
        (targets resolve source module globs s).Nodup ∧
        ∀ m, m ∈ targets resolve source module globs s ↔ ∃ e ∈ log, e.answer.Names m) ∧
    ∀ {σ τ : Type} (resolve : Resolver σ) (resolve' : Resolver τ) (s : σ) (s' : τ) (x : String),
      let log := heard resolve source module globs s
      let log' := heard resolve' source module globs s'
      (∀ e ∈ log, ∀ e' ∈ log', e.specifier = e'.specifier → e.specifier ≠ x →
        e.answer = e'.answer) →
      ∀ m ∈ targets resolve source module globs s,
        m ∈ targets resolve' source module globs s' ∨
          ∃ e ∈ log, e.specifier = x ∧ e.answer.Names m := by
  have htargets : ∀ {σ : Type} (resolve : Resolver σ) (s : σ) (m : ModuleId),
      m ∈ targets resolve source module globs s ↔
        ∃ e ∈ heard resolve source module globs s, e.answer.Names m :=
    fun resolve s m => mem_targets_iff resolve hroot htext module globs s
  refine ⟨fun resolve s => ⟨run_logged_collectDynamic resolve hroot htext module globs s,
    asks_heard resolve hroot htext module globs s, ?_, htargets resolve s⟩, ?_⟩
  · rw [targets, collectDynamic_eq resolve hroot htext]
    exact nodup_distinct _
  · intro σ τ resolve resolve' s s' x log log' hsame m hm
    obtain ⟨e, he, hnames⟩ := (htargets resolve s m).1 hm
    by_cases hx : e.specifier = x
    · exact .inr ⟨e, he, hx, hnames⟩
    · -- the other run has asked for the same specifier, and has been told the same
      have hasks := asks_heard resolve hroot htext module globs s
      have hasks' := asks_heard resolve' hroot htext module globs s'
      have hasked := (hasks.specifiers _).1 (List.mem_map_of_mem (f := Exchange.specifier) he)
      obtain ⟨e', he', hspecifier⟩ := List.mem_map.1 ((hasks'.specifiers _).2 hasked)
      have hanswer := hsame e he e' he' hspecifier.symm hx
      exact .inl ((htargets resolve' s' m).2 ⟨e', he', hanswer ▸ hnames⟩)

/-- When one of two specifiers fails, the target of the other one stays. -/
theorem collectDynamic_exact_of_failure :
    let source := Source.read .javascript "import('./b'); import('./a'); import('./b')"
    let answer : String → ModuleId → Answer := fun x _ =>
      .found (if x = "./a" then "/app/a.js?v" else "/app/b.js")
    let failing : String → ModuleId → Answer := fun x _ =>
      if x = "./a" then .failed "not found" else .found "/app/b.js"
    heard (Resolver.stateless answer) source "/app/i.ts?v" true () =
        [⟨"./b", "/app/i.ts", .found "/app/b.js"⟩, ⟨"./a", "/app/i.ts", .found "/app/a.js?v"⟩] ∧
      "/app/a.js" ∈ targets (Resolver.stateless answer) source "/app/i.ts?v" true () ∧
      "/app/b.js" ∈ targets (Resolver.stateless failing) source "/app/i.ts?v" true () := by
  intro source answer failing
  have hread : source.root?.map literalSpecifiers = some ["./b", "./a"] := by decide +kernel
  obtain ⟨root, hroot, hspecifiers⟩ := Option.map_eq_some_iff.1 hread
  have htext : hasDynamicSyntax source.text = true := by decide
  have hlog : ∀ answer : String → ModuleId → Answer,
      heard (Resolver.stateless answer) source "/app/i.ts?v" true () =
        ["./b", "./a"].map fun x => ⟨x, "/app/i.ts", answer x "/app/i.ts"⟩ := by
    intro answer
    have hfollows : ∀ x m, Settles (fun _ => True) (Resolver.stateless answer x m) (answer x m) :=
      fun _ _ => settles_pure _
    rw [heard_of_settles _ hroot htext _ _ _ hfollows trivial, hspecifiers]
    rfl
  obtain ⟨hcollected, hisolated⟩ := collectDynamic_exact hroot htext "/app/i.ts?v" true
  obtain ⟨-, -, -, htargets⟩ := hcollected (Resolver.stateless answer) ()
  have ha : "/app/a.js" ∈ targets (Resolver.stateless answer) source "/app/i.ts?v" true () :=
    (htargets _).2 ⟨⟨"./a", "/app/i.ts", .found "/app/a.js?v"⟩, by rw [hlog]; decide,
      "/app/a.js?v", rfl, by decide, by decide⟩
  have hb : "/app/b.js" ∈ targets (Resolver.stateless answer) source "/app/i.ts?v" true () :=
    (htargets _).2 ⟨⟨"./b", "/app/i.ts", .found "/app/b.js"⟩, by rw [hlog]; decide,
      "/app/b.js", rfl, by decide, by decide⟩
  refine ⟨hlog answer, ha, ?_⟩
  refine (hisolated _ (Resolver.stateless failing) () () "./a" ?_ _ hb).resolve_right ?_
  · rw [hlog, hlog]
    decide
  · rw [hlog]
    rintro ⟨e, he, hspecifier, id, hid, -, hquery⟩
    simp only [List.map_cons, List.map_nil, List.mem_cons, List.not_mem_nil, or_false] at he
    rcases he with rfl | rfl
    · exact absurd hspecifier (by decide)
    · cases hid
      exact absurd hquery (by decide)

end Imports

end RouteAssets
