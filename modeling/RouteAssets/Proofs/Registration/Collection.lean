import RouteAssets.Proofs.Imports.Asking
import RouteAssets.Proofs.Table
import RouteAssets.Registration.Collection

/-!
# What dependencies stand for

All registrations of a project stand one after another, file by file and in each file as they are
written. The lazy ones are put to a resolver in this order, and what dependencies stand for can be
read off the answers.

* **Registrations** (`mem_registrations_iff`): the entries of the readable files; no specifier of an
  entry is empty (`specifier_ne_empty`).
* **Answers** (`writeModules_askAll`, `run_collect`): collecting asks what one walk over the registrations
  asks, and pairs every lazy entry with its own answer.
* **Lazy registrations** (`collect_exact`): the last registration of a dependency that comes to a
  module decides, and registrations of other dependencies do not matter.
* **Static registrations** (`collect_lastDecides_iff`): they are passed over, so that a dependency
  whose last registration is static keeps the module of an earlier lazy one.
-/

namespace RouteAssets.Registration

/-! ## Specifiers -/

section Specifiers

/-- A quoted text is not empty. -/
lemma quotedAt?_ne_nil {cs inner rest : List Char} (h : quotedAt? cs = some (inner, rest)) :
    inner ≠ [] := by
  unfold quotedAt? at h
  split at h
  · split at h
    · split at h
      · cases h
      · rename_i hne _
        split at h
        · cases h
          intro hnil
          simp_all
        · cases h
      · cases h
    · cases h
  · cases h

/-- An import does not have an empty specifier. -/
lemma importAt?_ne_nil {cs specifier : List Char} (h : importAt? cs = some specifier) :
    specifier ≠ [] := by
  unfold importAt? at h
  split at h
  · simp only [Option.bind_eq_bind, Option.bind_some, Option.bind_eq_some_iff, Option.pure_def,
      Option.some.injEq] at h
    obtain ⟨_, -, ⟨_, _⟩, hquoted, _, -, rfl⟩ := h
    exact quotedAt?_ne_nil hquoted
  · cases h

/-- The first import in a text does not have an empty specifier. -/
lemma firstImport?_ne_nil {cs specifier : List Char} (h : firstImport? cs = some specifier) :
    specifier ≠ [] := by
  induction cs with
  | nil => cases h
  | cons c cs ih =>
    rw [firstImport?, Option.orElse_eq_orElse, Option.orElse_eq_or, Option.or_eq_some_iff] at h
    rcases h with h | ⟨-, h⟩
    · exact importAt?_ne_nil h
    · exact ih h

/-- No entry has an empty specifier. -/
lemma specifier_ne_empty {code : String} {e : Entry} (he : e ∈ entries code) :
    e.specifier ≠ some "" := by
  have hentry : ∀ (depId : DepId) (rest : List Char), (entryOf depId rest).specifier ≠ some "" := by
    intro depId rest h
    obtain ⟨specifier, hfirst, hempty⟩ := Option.map_eq_some_iff.1 h
    exact firstImport?_ne_nil hfirst (String.ofList_eq_empty_iff.1 hempty)
  have hupTo : ∀ (n : Nat) (cs : List Char), ∀ e ∈ entriesUpTo n cs, e.specifier ≠ some "" := by
    intro n
    induction n with
    | zero => simp [entriesUpTo]
    | succ n ih =>
      intro cs
      cases cs with
      | nil => simp [entriesUpTo]
      | cons c cs =>
        unfold entriesUpTo
        split
        · exact List.forall_mem_cons.2 ⟨hentry _ _, ih _⟩
        · exact ih _
  exact hupTo _ _ e he

end Specifiers

/-! ## Registrations and answers -/

/-- An entry is lazy: its value imports a specifier. -/
def Entry.IsLazy (e : Entry) : Prop := e.specifier ≠ none

/-- A registration: an entry in a file. -/
structure Registered where
  file : File
  entry : Entry
  deriving DecidableEq, Repr

/-- The registrations of a file in the order in which they are written. -/
def File.registrations (file : File) : List Registered :=
  match file.code with
  | none => []
  | some code => (entries code).map fun entry => { file, entry }

/-- The registrations of some files in order. -/
def registrations (files : List File) : List Registered := files.flatMap File.registrations

/-- A registration with what a resolver says to its specifier, if it is lazy. -/
structure Heard where
  registered : Registered
  answer : Option Answer
  deriving DecidableEq, Repr

/-- The dependency that a registration is about. -/
def Heard.depId (x : Heard) : DepId := x.registered.entry.depId

/-- A registration comes to a module: it is answered with a name that is not empty, and the module
is this name without its query. -/
def Heard.Names (x : Heard) (m : ModuleId) : Prop :=
  ∃ id, x.answer = some (.found id) ∧ id ≠ "" ∧ m = id.withoutQuery

/-- The module that a registration comes to. -/
def Heard.module? (x : Heard) : Option ModuleId := x.answer.bind Answer.module?

variable {σ : Type}

/-- Puts a lazy registration to a resolver, on behalf of the file that it stands in. -/
def Registered.ask (resolve : Resolver σ) (r : Registered) : StateM σ Heard :=
  match r.entry.specifier with
  | none => pure { registered := r, answer := none }
  | some specifier => do
    let answer ← resolve specifier r.file.module
    return { registered := r, answer := some answer }

/-- Puts all registrations of some files to a resolver, one after another. -/
def hear (resolve : Resolver σ) (files : List File) : StateM σ (List Heard) :=
  (registrations files).mapM (Registered.ask resolve)

/-- Registrations of a file are its entries, if it can be read. -/
lemma File.mem_registrations_iff {file : File} {r : Registered} :
    r ∈ file.registrations ↔
      r.file = file ∧ ∃ code, file.code = some code ∧ r.entry ∈ entries code := by
  unfold File.registrations
  cases file.code with
  | none => simp
  | some code =>
    simp only [List.mem_map, Option.some.injEq, exists_eq_left']
    constructor
    · rintro ⟨e, he, rfl⟩
      exact ⟨rfl, he⟩
    · rintro ⟨rfl, he⟩
      exact ⟨r.entry, he, rfl⟩

/-- Registrations are the entries of the files that can be read. -/
lemma mem_registrations_iff {files : List File} {r : Registered} :
    r ∈ registrations files ↔
      r.file ∈ files ∧ ∃ code, r.file.code = some code ∧ r.entry ∈ entries code := by
  simp only [registrations, List.mem_flatMap, File.mem_registrations_iff]
  constructor
  · rintro ⟨_, hfile, rfl, hentry⟩
    exact ⟨hfile, hentry⟩
  · rintro ⟨hfile, hentry⟩
    exact ⟨r.file, hfile, rfl, hentry⟩

/-- Files that cannot be read have no registrations. -/
lemma registrations_filter (files : List File) :
    registrations (files.filter (·.code.isSome)) = registrations files := by
  induction files with
  | nil => rfl
  | cons file files ih =>
    have hcons : ∀ fs, registrations (file :: fs) = file.registrations ++ registrations fs :=
      fun _ => List.flatMap_cons
    cases hcode : file.code with
    | none =>
      have hnone : file.registrations = [] := by rw [File.registrations, hcode]
      rw [List.filter_cons_of_neg (by simp [hcode]), ih, hcons, hnone, List.nil_append]
    | some code => rw [List.filter_cons_of_pos (by simp [hcode]), hcons, hcons, ih]

/-- The module that a registration comes to, if any. -/
lemma Heard.module?_eq_some_iff {x : Heard} {m : ModuleId} :
    x.module? = some m ↔ x.Names m := by
  unfold Heard.module? Heard.Names
  rcases x.answer with _ | id | - | -
  · simp
  · by_cases hid : id = "" <;> simp [Answer.module?, hid, eq_comm (b := m)]
  · simp [Answer.module?]
  · simp [Answer.module?]

/-- A registration comes to some module. -/
lemma Heard.module?_ne_none_iff {x : Heard} : x.module? ≠ none ↔ ∃ m, x.Names m := by
  rw [Option.ne_none_iff_exists']
  exact exists_congr fun _ => Heard.module?_eq_some_iff

/-! ## Collecting -/

/-- Writes the module that a registration comes to over what is known. -/
def Heard.write (known : Table DepId ModuleId) (x : Heard) : Table DepId ModuleId :=
  match x.module? with
  | some m => known.insert x.depId m
  | none => known

/-- The lazy entry that an entry with a specifier is. -/
def Entry.lazy? (e : Entry) : Option Lazy :=
  e.specifier.map fun specifier => { depId := e.depId, specifier }

/-- The lazy entries of a text are its entries with a specifier. -/
lemma lazyEntries_eq (code : String) : lazyEntries code = (entries code).filterMap Entry.lazy? := by
  refine List.filterMap_congr fun e he => ?_
  unfold Entry.lazy?
  rcases h : e.specifier with _ | specifier
  · rfl
  · -- the case of an empty specifier does not arise
    have hne : specifier ≠ "" := fun hempty => specifier_ne_empty he (hempty ▸ h)
    simp

/-- Lazy entries that are asked for together get the answers that they get one after another among
all entries, and no answer goes to another entry. -/
lemma writeModules_askAll (resolve : Resolver σ) (file : File) (es : List Entry)
    (known : Table DepId ModuleId) :
    writeModules known (es.filterMap Entry.lazy?) <$>
        askAll resolve file.module ((es.filterMap Entry.lazy?).map Lazy.specifier) =
      List.foldl Heard.write known <$>
        (es.map fun entry => (⟨file, entry⟩ : Registered)).mapM (Registered.ask resolve) := by
  induction es generalizing known with
  | nil => rfl
  | cons e es ih =>
    rw [List.map_cons, List.mapM_cons]
    rcases h : e.specifier with _ | specifier
    · have hlazy : e.lazy? = none := by rw [Entry.lazy?, h, Option.map_none]
      rw [List.filterMap_cons_none hlazy, ih]
      simp [Registered.ask, h, Heard.write, Heard.module?]
    · have hlazy : e.lazy? = some ⟨e.depId, specifier⟩ := by rw [Entry.lazy?, h, Option.map_some]
      rw [List.filterMap_cons_some hlazy, askAll, List.map_cons, List.mapM_cons]
      simp only [Registered.ask, h, map_bind, bind_assoc, pure_bind, map_pure]
      refine bind_congr fun a => ?_
      rw [bind_pure_comp, bind_pure_comp]
      exact ih (Heard.write known { registered := ⟨file, e⟩, answer := some a })

/-- Taking in one more file writes what its registrations come to. -/
lemma modules_collectFile_eq (resolve : Resolver σ) (known : Collected) (file : File) :
    Collected.modules <$> collectFile resolve known file =
      List.foldl Heard.write known.modules <$>
        file.registrations.mapM (Registered.ask resolve) := by
  unfold collectFile File.registrations
  cases file.code with
  | none => rfl
  | some code =>
    rw [← writeModules_askAll, ← lazyEntries_eq]
    simp only [map_bind, map_pure]
    rw [bind_pure_comp]

/-- Taking in files one after another writes what all their registrations come to. -/
lemma modules_foldlM_collectFile (resolve : Resolver σ) (files : List File) (known : Collected) :
    Collected.modules <$> files.foldlM (collectFile resolve) known =
      List.foldl Heard.write known.modules <$> hear resolve files := by
  induction files generalizing known with
  | nil => rfl
  | cons file files ih =>
    have hcons : hear resolve (file :: files) = do
        let xs ← file.registrations.mapM (Registered.ask resolve)
        let ys ← hear resolve files
        return xs ++ ys := by
      rw [hear, registrations, List.flatMap_cons, List.mapM_append]
      rfl
    calc Collected.modules <$> (file :: files).foldlM (collectFile resolve) known
        = collectFile resolve known file >>= fun c =>
            List.foldl Heard.write c.modules <$> hear resolve files := by
          rw [List.foldlM_cons, map_bind]
          exact bind_congr fun c => ih c
      _ = (Collected.modules <$> collectFile resolve known file) >>= fun table =>
            List.foldl Heard.write table <$> hear resolve files := by
          rw [bind_map_left]
      _ = List.foldl Heard.write known.modules <$> hear resolve (file :: files) := by
          rw [modules_collectFile_eq, bind_map_left, hcons, map_bind]
          refine bind_congr fun xs => ?_
          simp only [bind_pure_comp, Functor.map_map, List.foldl_append]

/-- **Collecting asks what one walk over all registrations asks**, in the same order, and writes
what they come to into one table. -/
lemma run_collect (resolve : Resolver σ) (files : List File) (s : σ) :
    ((collect resolve files).run s).1.modules =
        ((hear resolve files).run s).1.foldl Heard.write Table.empty ∧
      ((collect resolve files).run s).2 = ((hear resolve files).run s).2 := by
  have hrun := congrArg (fun x => x.run s)
    (modules_foldlM_collectFile resolve files { modules := Table.empty, notices := [] })
  exact ⟨congrArg Prod.fst hrun, congrArg Prod.snd hrun⟩

/-- A registration is heard as it is, and it is answered exactly if it is lazy. -/
lemma run_ask (resolve : Resolver σ) (r : Registered) (s : σ) :
    ((r.ask resolve).run s).1.registered = r ∧
      (((r.ask resolve).run s).1.answer ≠ none ↔ r.entry.IsLazy) := by
  unfold Registered.ask Entry.IsLazy
  rcases r.entry.specifier with _ | specifier
  · exact ⟨rfl, not_congr (iff_of_true rfl rfl)⟩
  · exact ⟨rfl, not_congr (iff_of_false nofun nofun)⟩

/-- All registrations are heard in order, and the lazy ones are answered. -/
lemma run_hear (resolve : Resolver σ) (files : List File) (s : σ) :
    ((hear resolve files).run s).1.map Heard.registered = registrations files ∧
      ∀ x ∈ ((hear resolve files).run s).1, x.answer ≠ none ↔ x.registered.entry.IsLazy := by
  unfold hear
  induction registrations files generalizing s with
  | nil => exact ⟨rfl, fun _ hx => absurd hx List.not_mem_nil⟩
  | cons r rs ih =>
    obtain ⟨hsame, hanswer⟩ := run_ask resolve r s
    obtain ⟨hmap, hanswers⟩ := ih ((r.ask resolve).run s).2
    have hrun : (((r :: rs).mapM (Registered.ask resolve)).run s).1 =
        ((r.ask resolve).run s).1 ::
          ((rs.mapM (Registered.ask resolve)).run ((r.ask resolve).run s).2).1 := by
      rw [List.mapM_cons]
      rfl
    rw [hrun, List.map_cons, hsame, hmap, List.forall_mem_cons, hsame]
    exact ⟨rfl, hanswer, hanswers⟩

/-! ## Lazy registrations -/

/-- The answers to the lazy registrations of a dependency, in order. -/
def answersFor (d : DepId) (heard : List Heard) : List Answer :=
  (heard.filter (·.depId = d)).filterMap Heard.answer

/-- What is known of a dependency is the module of its last answer with one. -/
lemma get?_foldl_write (heard : List Heard) (d : DepId) :
    (heard.foldl Heard.write Table.empty).get? d =
      ((answersFor d heard).filterMap Answer.module?).getLast? := by
  have hmodules : (answersFor d heard).filterMap Answer.module? =
      (heard.filter (·.depId = d)).filterMap Heard.module? := List.filterMap_filterMap
  rw [hmodules]
  clear hmodules
  induction heard using List.reverseRecOn with
  | nil => rfl
  | append_singleton heard x ih =>
    rw [List.foldl_append, List.foldl_cons, List.foldl_nil, Heard.write, List.filter_append,
      List.filterMap_append, List.getLast?_append]
    cases hx : x.module? with
    | none => by_cases hd : x.depId = d <;> simp [hd, hx, ih]
    | some m =>
      dsimp only
      rw [Table.get?_insert, ih]
      by_cases hd : x.depId = d <;> simp [hd, hx]

/-- The last registration of a dependency that comes to a module says what is known of it. -/
lemma get?_foldl_write_eq_some_iff {heard : List Heard} {d : DepId} {m : ModuleId} :
    (heard.foldl Heard.write Table.empty).get? d = some m ↔
      ∃ x, IsLast (fun x => x.depId = d ∧ ∃ m, x.Names m) heard x ∧ x.Names m := by
  have hpairs : heard.foldl Heard.write Table.empty =
      Table.ofList (heard.filterMap fun x => x.module?.map fun m => (x.depId, m)) := by
    rw [Table.ofList, List.foldl_filterMap]
    congr 1
    funext table x
    rw [Heard.write]
    cases x.module? <;> rfl
  rw [hpairs, Table.get?_ofList_filterMap]
  simp only [Heard.module?_ne_none_iff, Heard.module?_eq_some_iff]

section Collected

variable (resolve : Resolver σ) (files : List File) (s : σ)

/-- The last registration of a dependency that comes to a module says what it is known as. -/
lemma get?_collect_eq_some_iff (d : DepId) (m : ModuleId) :
    ((collect resolve files).run s).1.modules.get? d = some m ↔
      ∃ x, IsLast (fun x => x.depId = d ∧ ∃ m, x.Names m) ((hear resolve files).run s).1 x ∧
        x.Names m := by
  rw [(run_collect resolve files s).1]
  exact get?_foldl_write_eq_some_iff

/-- A dependency is known if one of its registrations comes to a module. -/
lemma exists_get?_collect_iff (d : DepId) :
    (∃ m, ((collect resolve files).run s).1.modules.get? d = some m) ↔
      ∃ x ∈ ((hear resolve files).run s).1, x.depId = d ∧ ∃ m, x.Names m := by
  simp only [get?_collect_eq_some_iff]
  constructor
  · rintro ⟨m, x, hx, hnames⟩
    exact ⟨x, hx.mem, hx.holds.1, m, hnames⟩
  · intro h
    obtain ⟨x, hx⟩ := exists_isLast h
    obtain ⟨-, m, hnames⟩ := hx.holds
    exact ⟨m, x, hx, hnames⟩

/-- What a dependency is known as depends on the answers to its own registrations alone. -/
lemma get?_collect_congr {τ : Type} (resolve' : Resolver τ) (files' : List File) (t : τ) {d : DepId}
    (h : answersFor d ((hear resolve files).run s).1 =
      answersFor d ((hear resolve' files').run t).1) :
    ((collect resolve files).run s).1.modules.get? d =
      ((collect resolve' files').run t).1.modules.get? d := by
  rw [(run_collect resolve files s).1, (run_collect resolve' files' t).1, get?_foldl_write,
    get?_foldl_write, h]

/-- Files that cannot be read do not change what dependencies are known as. -/
lemma modules_collect_filter :
    ((collect resolve (files.filter (·.code.isSome))).run s).1.modules =
      ((collect resolve files).run s).1.modules := by
  have hhear : hear resolve (files.filter (·.code.isSome)) = hear resolve files := by
    rw [hear, registrations_filter, hear]
  rw [(run_collect resolve _ s).1, (run_collect resolve files s).1, hhear]

end Collected

/-- **The last lazy registration with a module decides.** For all files, readable or not, and every
resolver: exactly the lazy registrations of the readable files are put to the resolver, in order and
each on behalf of its own file. A dependency is known if one of its registrations comes to a module,
and it is known as the module of the last one that does. What is known of a dependency depends on the
answers to its own registrations alone, so a failed answer to another one and a file that cannot be
read change nothing. -/
theorem collect_exact (resolve : Resolver σ) (files : List File) (s : σ) :
    let known := ((collect resolve files).run s).1.modules
    let heard := ((hear resolve files).run s).1
    ((collect resolve files).run s).2 = ((hear resolve files).run s).2 ∧
    heard.map Heard.registered = registrations files ∧
    (∀ r, r ∈ registrations files ↔
      r.file ∈ files ∧ ∃ code, r.file.code = some code ∧ r.entry ∈ entries code) ∧
    (∀ x ∈ heard, x.answer ≠ none ↔ x.registered.entry.IsLazy) ∧
    (∀ d, (∃ m, known.get? d = some m) ↔ ∃ x ∈ heard, x.depId = d ∧ ∃ m, x.Names m) ∧
    (∀ d m, known.get? d = some m ↔
      ∃ x, IsLast (fun x => x.depId = d ∧ ∃ m, x.Names m) heard x ∧ x.Names m) ∧
    (∀ (τ : Type) (resolve' : Resolver τ) (files' : List File) (t : τ) (d : DepId),
      answersFor d heard = answersFor d ((hear resolve' files').run t).1 →
        known.get? d = ((collect resolve' files').run t).1.modules.get? d) ∧
    ((collect resolve (files.filter (·.code.isSome))).run s).1.modules = known := by
  intro known heard
  obtain ⟨-, hstate⟩ := run_collect resolve files s
  obtain ⟨hmap, hanswers⟩ := run_hear resolve files s
  exact ⟨hstate, hmap, fun _ => mem_registrations_iff, hanswers,
    exists_get?_collect_iff resolve files s, get?_collect_eq_some_iff resolve files s,
    fun _ resolve' files' t _ h => get?_collect_congr resolve files s resolve' files' t h,
    modules_collect_filter resolve files s⟩

-- an unreadable file and a failed answer do not shift the answers of other registrations
example :
    let files : List File := [⟨"a.ts", "/app/a.ts", none⟩,
      ⟨"b.ts", "/app/b.ts", some "[D.A]: () => import('./x'), [D.B]: () => import('./y')"⟩]
    let resolve : Resolver Unit := Resolver.stateless fun s _ =>
      if s = "./y" then .found "/app/y.ts?v=1" else .failed "missing"
    (value (collect resolve files)).modules.entries = [("D.B", "/app/y.ts")] := by
  decide

/-! ## Static registrations -/

/-- The last registration of a dependency decides: the dependency is known exactly as what this one
comes to. -/
def LastDecides (known : Table DepId ModuleId) (heard : List Heard) (d : DepId) : Prop :=
  ∀ m, known.get? d = some m ↔ ∃ x, IsLast (fun x => x.depId = d) heard x ∧ x.Names m

/-- Where lazy registrations decide, the last one of all does exactly if it is lazy itself or none
is. -/
lemma lastDecides_iff {known : Table DepId ModuleId} {heard : List Heard} {d : DepId}
    (hlazy : ∀ x ∈ heard, x.registered.entry.IsLazy ↔ ∃ m, x.Names m)
    (hknown : ∀ m, known.get? d = some m ↔
      ∃ x, IsLast (fun x => x.depId = d ∧ x.registered.entry.IsLazy) heard x ∧ x.Names m) :
    LastDecides known heard d ↔
      (∃ x, IsLast (fun x => x.depId = d) heard x ∧ x.registered.entry.IsLazy) ∨
        ∀ x ∈ heard, x.depId = d → ¬ x.registered.entry.IsLazy := by
  constructor
  · intro hdecides
    by_cases hstatic : ∀ x ∈ heard, x.depId = d → ¬ x.registered.entry.IsLazy
    · exact Or.inr hstatic
    · -- the last lazy registration is known, so the last one of all comes to its module
      push Not at hstatic
      obtain ⟨x, hx⟩ := exists_isLast hstatic
      obtain ⟨m, hm⟩ := (hlazy x hx.mem).1 hx.holds.2
      obtain ⟨y, hy, hnames⟩ := (hdecides m).1 ((hknown m).2 ⟨x, hx, hm⟩)
      exact Or.inl ⟨y, hy, (hlazy y hy.mem).2 ⟨m, hnames⟩⟩
  · rintro (⟨y, hy, hylazy⟩ | hstatic) m
    · have hnarrow : IsLast (fun x => x.depId = d ∧ x.registered.entry.IsLazy) heard y :=
        hy.narrow ⟨hy.holds, hylazy⟩ fun _ h => h.1
      rw [hknown]
      constructor
      · rintro ⟨x, hx, hm⟩
        exact ⟨y, hy, hx.unique hnarrow ▸ hm⟩
      · rintro ⟨x, hx, hm⟩
        exact ⟨y, hnarrow, hx.unique hy ▸ hm⟩
    · rw [hknown]
      constructor
      · rintro ⟨x, hx, -⟩
        exact absurd hx.holds.2 (hstatic x hx.mem hx.holds.1)
      · rintro ⟨x, hx, hm⟩
        exact absurd ((hlazy x hx.mem).2 ⟨m, hm⟩) (hstatic x hx.mem hx.holds)

/-- A registration that comes to a module is lazy. -/
lemma isLazy_of_names {resolve : Resolver σ} {files : List File} {s : σ} {x : Heard} {m : ModuleId}
    (hx : x ∈ ((hear resolve files).run s).1) (h : x.Names m) : x.registered.entry.IsLazy := by
  obtain ⟨id, hanswer, -⟩ := h
  refine ((run_hear resolve files s).2 x hx).1 ?_
  rw [hanswer]
  exact Option.some_ne_none _

/-- **The last registration decides unless it is static and an earlier one is lazy.** Where every
specifier comes to a module, the last lazy registration of a dependency decides, whatever static ones
come after it. So the last registration decides exactly if it is lazy itself or none is. -/
theorem collect_lastDecides_iff (resolve : Resolver σ) (files : List File) (s : σ)
    (hresolves : ∀ x ∈ ((hear resolve files).run s).1,
      x.registered.entry.IsLazy → ∃ m, x.Names m) (d : DepId) :
    let known := ((collect resolve files).run s).1.modules
    let heard := ((hear resolve files).run s).1
    (∀ m, known.get? d = some m ↔
      ∃ x, IsLast (fun x => x.depId = d ∧ x.registered.entry.IsLazy) heard x ∧ x.Names m) ∧
    (LastDecides known heard d ↔
      (∃ r, IsLast (fun r => r.entry.depId = d) (registrations files) r ∧ r.entry.IsLazy) ∨
        ∀ r ∈ registrations files, r.entry.depId = d → ¬ r.entry.IsLazy) := by
  intro known heard
  have hmap : heard.map Heard.registered = registrations files := (run_hear resolve files s).1
  have hlazy : ∀ x ∈ heard, x.registered.entry.IsLazy ↔ ∃ m, x.Names m :=
    fun x hx => ⟨hresolves x hx, fun ⟨_, hm⟩ => isLazy_of_names hx hm⟩
  have hknown : ∀ m, known.get? d = some m ↔
      ∃ x, IsLast (fun x => x.depId = d ∧ x.registered.entry.IsLazy) heard x ∧ x.Names m := by
    intro m
    rw [get?_collect_eq_some_iff]
    refine exists_congr fun x => and_congr_left fun _ => isLast_congr fun y hy => ?_
    rw [hlazy y hy]
  refine ⟨hknown, ?_⟩
  rw [lastDecides_iff hlazy hknown, ← hmap]
  simp only [isLast_map_iff, List.forall_mem_map]
  refine or_congr_left ⟨?_, ?_⟩
  · rintro ⟨x, hx, hxlazy⟩
    exact ⟨_, ⟨x, hx, rfl⟩, hxlazy⟩
  · rintro ⟨_, ⟨x, hx, rfl⟩, hxlazy⟩
    exact ⟨x, hx, hxlazy⟩

/-- A dependency that is registered with an import and then, in a later file, with a class: it is
still known as the module of the import. -/
theorem collect_keeps_stale_module :
    let lazyFile : File := ⟨"a.ts", "/app/a.ts", some "[D.A]: () => import('./x')"⟩
    let staticFile : File := ⟨"b.ts", "/app/b.ts", some "[D.A]: Static"⟩
    let resolve : Resolver Unit := Resolver.stateless fun _ _ => .found "/app/x.ts"
    let known := ((collect resolve [lazyFile, staticFile]).run ()).1.modules
    let heard := ((hear resolve [lazyFile, staticFile]).run ()).1
    (∀ x ∈ heard, x.registered.entry.IsLazy → ∃ m, x.Names m) ∧
      IsLast (fun r => r.entry.depId = "D.A") (registrations [lazyFile, staticFile])
        ⟨staticFile, ⟨"D.A", none⟩⟩ ∧
      known.get? "D.A" = some "/app/x.ts" ∧ ¬ LastDecides known heard "D.A" := by
  intro lazyFile staticFile resolve known heard
  have hregistrations : registrations [lazyFile, staticFile] =
      [⟨lazyFile, ⟨"D.A", some "./x"⟩⟩, ⟨staticFile, ⟨"D.A", none⟩⟩] := by decide
  have hheard : heard = [⟨⟨lazyFile, ⟨"D.A", some "./x"⟩⟩, some (.found "/app/x.ts")⟩,
      ⟨⟨staticFile, ⟨"D.A", none⟩⟩, none⟩] := by decide
  have hresolves : ∀ x ∈ heard, x.registered.entry.IsLazy → ∃ m, x.Names m := by
    rw [hheard, List.forall_mem_cons, List.forall_mem_singleton]
    exact ⟨fun _ => ⟨_, _, rfl, by decide, rfl⟩, fun hlazy => absurd rfl hlazy⟩
  have hlast : IsLast (fun r => r.entry.depId = "D.A") (registrations [lazyFile, staticFile])
      ⟨staticFile, ⟨"D.A", none⟩⟩ :=
    ⟨[_], [], hregistrations, rfl, fun _ h => absurd h List.not_mem_nil⟩
  obtain ⟨-, hdecides⟩ :=
    collect_lastDecides_iff resolve [lazyFile, staticFile] () hresolves "D.A"
  refine ⟨hresolves, hlast, by decide, fun h => ?_⟩
  rcases hdecides.1 h with ⟨r, hr, hlazy⟩ | hstatic
  · exact hlazy (hr.unique hlast ▸ rfl)
  · have hfirst : ⟨lazyFile, ⟨"D.A", some "./x"⟩⟩ ∈ registrations [lazyFile, staticFile] :=
      hregistrations ▸ List.mem_cons_self
    exact hstatic _ hfirst rfl (Option.some_ne_none _)

end RouteAssets.Registration
