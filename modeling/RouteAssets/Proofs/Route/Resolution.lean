import RouteAssets.Proofs.Build.Resolving
import RouteAssets.Proofs.Table
import RouteAssets.Route.Resolution

/-!
# Each route gets its own module

The dynamic imports of a script are asked for as one list, made of the definitions that have one, and
the answers are handed back to the definitions by a second walk over them. Nothing shifts on the way
(`resolveDefinitions_askAll`): it is as if each definition asked for its own import when its turn
comes (`Definition.ask`). The table of local names follows the last binding that got a module
(`isTableOf_importTable`).

* **Exactness** (`extract_exact`): which extraction any resolver leads to, and that two resolvers
  that differ on one specifier lead to extractions that differ only where it is used.
-/

namespace RouteAssets

/-- The module found, where it may stand in a table: one with a name that is not empty. -/
def Answer.named? (a : Answer) : Option ModuleId :=
  match a.module? with
  | some "" => none
  | entry => entry

namespace Route

open RouteAssets.Script RouteAssets.Imports

/-! ## Definitions one by one -/

/-- The specifier of a dynamic component. -/
def Component.specifier? : Component → Option String
  | .dynamic specifier => some specifier
  | _ => none

/-- The variable that a component is. -/
def Component.identifier? : Component → Option String
  | .named identifier => some identifier
  | _ => none

/-- The route of a definition as it is written: for its module stands the specifier of its own
dynamic import. -/
def Definition.written (d : Definition) : Route :=
  { path := d.path
    fullPath := d.fullPath
    entry := d.component.specifier?
    isDynamic := d.component.specifier?.isSome
    component := d.component.identifier? }

/-- A route with another module. -/
def withEntry (r : Route) (entry : Option ModuleId) : Route := { r with entry }

/-- The module of a definition, where names stand for modules and specifiers have fixed answers. -/
def Definition.module? (table : Table String ModuleId) (answer : String → Answer)
    (d : Definition) : Option ModuleId :=
  match d.component with
  | .dynamic specifier => (answer specifier).module?
  | .named name => table.get? name
  | .other => none

/-- The route of a definition that asks for its own dynamic import. -/
def Definition.ask {σ : Type} (resolve : Resolver σ) (importer : ModuleId)
    (table : Table String ModuleId) (d : Definition) : StateM σ Route :=
  match d.component with
  | .dynamic specifier => do
    let answer ← resolve specifier importer
    return withEntry d.written answer.module?
  | .named name => return withEntry d.written (table.get? name)
  | .other => return withEntry d.written none

section Definitions

variable {σ : Type} {resolve : Resolver σ} {importer : ModuleId} {table : Table String ModuleId}

/-- The requests of the definitions behind the first one. -/
lemma dynamicRequests_cons (d : Definition) (ds : List Definition) :
    dynamicRequests (d :: ds) = d.component.specifier?.toList ++ dynamicRequests ds := by
  cases h : d.component <;> simp [dynamicRequests, Component.specifier?, h]

/-- Each answer goes to the definition that it was asked for. -/
lemma resolveDefinitions_askAll {σ : Type} (resolve : Resolver σ) (importer : ModuleId)
    (table : Table String ModuleId) (ds : List Definition) :
    (do
      let answers ← askAll resolve importer (dynamicRequests ds)
      return resolveDefinitions table ds answers) =
      ds.mapM (Definition.ask resolve importer table) := by
  induction ds with
  | nil => rfl
  | cons d ds ih =>
    rw [List.mapM_cons, ← ih, dynamicRequests_cons]
    cases h : d.component <;>
      simp [Definition.ask, Definition.written, withEntry, Component.specifier?,
        Component.identifier?, resolveDefinitions, askAll, h]

/-- With fixed answers each definition gets its own module. -/
lemma settles_ask {good : σ → Prop} {answer : String → Answer}
    (h : ∀ specifier, Settles good (resolve specifier importer) (answer specifier))
    (ds : List Definition) :
    Settles good (ds.mapM (Definition.ask resolve importer table))
      (ds.map fun d => withEntry d.written (d.module? table answer)) := by
  refine settles_mapM fun d _ => ?_
  unfold Definition.ask Definition.module?
  split
  · exact (h _).bind (settles_pure _)
  · exact settles_pure _
  · exact settles_pure _

/-- With fixed answers each definition gets its own module, when the answers are handed back. -/
lemma resolveDefinitions_map (answer : String → Answer) (ds : List Definition) :
    resolveDefinitions table ds ((dynamicRequests ds).map answer) =
      ds.map fun d => withEntry d.written (d.module? table answer) := by
  have hanswer : ∀ specifier, Settles (fun _ => True)
      (Resolver.stateless (fun s _ => answer s) specifier "") (answer specifier) :=
    fun _ => settles_pure _
  have hroutes := congrArg value
    (resolveDefinitions_askAll (Resolver.stateless fun s _ => answer s) "" table ds)
  rwa [value_bind, value_askAll, value_pure, value, (settles_ask hanswer ds () trivial).1]
    at hroutes

end Definitions

/-! ## Local names -/

/-- The names that a script binds, none where there is no tree. -/
def boundNames (source : Source) : List Binding := (source.root?.map bindings).getD []

/-- Asks for the module of each local name. -/
def askNames {σ : Type} (resolve : Resolver σ) (importer : ModuleId) (bound : List Binding) :
    StateM σ (List (Binding × Answer)) :=
  bound.mapM fun b => do return (b, ← resolve b.source importer)

/-- A table gives each name the module of the last binding of it that got one. -/
def IsTableOf (bound : List (Binding × Answer)) (table : Table String ModuleId) : Prop :=
  ∀ name m, table.get? name = some m ↔
    ∃ b, IsLast (fun b => b.1.name = name ∧ b.2.named? ≠ none) bound b ∧ b.2.named? = some m

/-- The table of local names follows the last binding that got a module. -/
lemma isTableOf_importTable (bound : List Binding) (answers : List Answer) :
    IsTableOf (bound.zip answers) (importTable bound answers) := by
  have htable : importTable bound answers =
      Table.ofList ((bound.zip answers).filterMap fun b => b.2.named?.map fun m => (b.1.name, m)) := by
    rw [importTable, Table.ofList, List.foldl_filterMap]
    congr 1
    funext table p
    obtain ⟨b, a⟩ := p
    simp only [Answer.named?]
    cases a.module? with
    | none => rfl
    | some m => by_cases hm : m = "" <;> simp [hm]
  intro name m
  rw [htable, Table.get?_ofList_filterMap]

/-- The bindings with the answers to their specifiers. -/
lemma askNames_eq {σ : Type} (resolve : Resolver σ) (importer : ModuleId) (bound : List Binding) :
    askNames resolve importer bound = (do
      let answers ← askAll resolve importer (bound.map Binding.source)
      return bound.zip answers) := by
  induction bound with
  | nil => rfl
  | cons b bound ih =>
    rw [askNames, askAll] at ih ⊢
    simp only [List.map_cons, List.mapM_cons, ih, bind_assoc, pure_bind, List.zip_cons_cons]

/-! ## Extractions -/

/-- An extraction is made of the definitions in order: those with a dynamic import have the answers
to their own requests, which come after the requests for the local names. -/
structure IsExtraction {σ : Type} (resolve : Resolver σ) (importer : ModuleId) (bound : List Binding)
    (ds : List Definition) (s : σ) (found : Extraction) (t : σ) : Prop where
  imports : IsTableOf ((askNames resolve importer bound).run s).1 found.imports
  routes : (ds.mapM (Definition.ask resolve importer found.imports)).run
    ((askNames resolve importer bound).run s).2 = (found.routes, t)

/-- The extraction that fixed answers lead to. -/
structure IsAnswered (answer : String → Answer) (bound : List Binding) (ds : List Definition)
    (found : Extraction) : Prop where
  imports : IsTableOf (bound.map fun b => (b, answer b.source)) found.imports
  routes : found.routes = ds.map fun d => withEntry d.written (d.module? found.imports answer)

/-- A definition uses a specifier when it imports it or is a name that it may be bound to. -/
def Definition.Uses (bound : List Binding) (specifier : String) (d : Definition) : Prop :=
  d.component = .dynamic specifier ∨
    ∃ b ∈ bound, b.source = specifier ∧ d.component = .named b.name

/-- Two extractions differ only in the modules of routes and of names that use a specifier. -/
structure DifferAt (specifier : String) (bound : List Binding) (ds : List Definition)
    (found found' : Extraction) : Prop where
  written : found.routes.map (withEntry · none) = found'.routes.map (withEntry · none)
  routes : ∀ (i : ℕ) (d : Definition), ds[i]? = some d → ¬ d.Uses bound specifier → found.routes[i]? = found'.routes[i]?
  imports : ∀ name, (∀ b ∈ bound, b.name = name → b.source ≠ specifier) →
    found.imports.get? name = found'.imports.get? name

section Extractions

variable {source : Source} {ds : List Definition}

/-- Definitions that do not end are not extracted, whatever the resolver answers. -/
lemma exists_extract_error {σ : Type} (resolve : Resolver σ) (importer : ModuleId)
    (h : definitions source = none) (s : σ) : ∃ e, ((extract resolve source importer).run s).1 = .error e := by
  simp only [extract, h]
  exact ⟨_, rfl⟩

/-- Definitions that end are extracted, whatever the resolver answers. -/
lemma exists_isExtraction {σ : Type} (resolve : Resolver σ) (importer : ModuleId)
    (h : definitions source = some ds) (s : σ) :
    ∃ found t, (extract resolve source importer).run s = (.ok found, t) ∧
      IsExtraction resolve importer (boundNames source) ds s found t := by
  have hnames := congrArg (·.run s) (askNames_eq resolve importer (boundNames source))
  simp only [StateT.run_bind, StateT.run_pure] at hnames
  simp only [extract, h]
  refine ⟨_, _, rfl, ?_, ?_⟩
  · rw [hnames]
    exact isTableOf_importTable _ _
  · rw [← resolveDefinitions_askAll, hnames]
    rfl

/-- The extraction that fixed answers lead to. -/
lemma exists_value_extract (answer : String → ModuleId → Answer) (importer : ModuleId)
    (h : definitions source = some ds) {table : Table String ModuleId}
    (htable : table = importTable (boundNames source)
      ((boundNames source).map fun b => answer b.source importer)) :
    ∃ notices, value (extract (Resolver.stateless answer) source importer) =
      .ok { routes := ds.map fun d => withEntry d.written (d.module? table (answer · importer))
            imports := table, notices } := by
  rw [extract, value_bind, value_askAll, List.map_map, h]
  dsimp only
  rw [value_bind, value_askAll, value_pure, resolveDefinitions_map (answer · importer) ds, htable]
  exact ⟨_, rfl⟩

/-- The extraction that fixed answers lead to is what they say. -/
lemma exists_isAnswered (answer : String → ModuleId → Answer) (importer : ModuleId)
    (h : definitions source = some ds) :
    ∃ found, value (extract (Resolver.stateless answer) source importer) = .ok found ∧
      IsAnswered (answer · importer) (boundNames source) ds found := by
  obtain ⟨notices, hvalue⟩ := exists_value_extract answer importer h rfl
  have htable := isTableOf_importTable (boundNames source)
    ((boundNames source).map fun b => answer b.source importer)
  rw [← List.map_prod_left_eq_zip] at htable
  exact ⟨_, hvalue, htable, rfl⟩

/-- A name that is not bound from a specifier stands for the same module whatever its answer. -/
lemma IsTableOf.get?_congr {bound : List Binding} {answer answer' : String → Answer}
    {table table' : Table String ModuleId} {specifier name : String}
    (h : IsTableOf (bound.map fun b => (b, answer b.source)) table)
    (h' : IsTableOf (bound.map fun b => (b, answer' b.source)) table')
    (heq : ∀ s ≠ specifier, answer s = answer' s)
    (hname : ∀ b ∈ bound, b.name = name → b.source ≠ specifier) :
    table.get? name = table'.get? name := by
  have hsame : ∀ b ∈ bound, b.name = name → answer b.source = answer' b.source :=
    fun b hb hb' => heq _ (hname b hb hb')
  ext m
  simp only [h name m, h' name m, isLast_map_iff]
  constructor
  all_goals
    rintro ⟨_, ⟨b, hb, rfl⟩, hm⟩
    have hb' := hsame b hb.mem hb.holds.1
    refine ⟨_, ⟨b, (isLast_congr fun c hc => and_congr_right fun hc' => ?_).1 hb, rfl⟩, ?_⟩
  · rw [hsame c hc hc']
  · rwa [← hb']
  · rw [hsame c hc hc']
  · rwa [hb']

/-- A definition that does not use a specifier has the same module whatever its answer. -/
lemma Definition.module?_congr {bound : List Binding} {answer answer' : String → Answer}
    {table table' : Table String ModuleId} {specifier : String} {d : Definition}
    (heq : ∀ s ≠ specifier, answer s = answer' s)
    (htable : ∀ name, (∀ b ∈ bound, b.name = name → b.source ≠ specifier) →
      table.get? name = table'.get? name)
    (hd : ¬ d.Uses bound specifier) : d.module? table answer = d.module? table' answer' := by
  obtain ⟨hdynamic, hnamed⟩ := not_or.1 hd
  unfold Definition.module?
  split
  · rename_i s hs
    rw [heq s fun h => hdynamic (h ▸ hs)]
  · rename_i name hname
    exact htable name fun b hb hb' hsource => hnamed ⟨b, hb, hsource, hb' ▸ hname⟩
  · rfl

/-- Answers that differ on one specifier lead to extractions that differ where it is used. -/
lemma differAt_of_isAnswered {bound : List Binding} {answer answer' : String → Answer}
    {found found' : Extraction} {specifier : String} (h : IsAnswered answer bound ds found)
    (h' : IsAnswered answer' bound ds found') (heq : ∀ s ≠ specifier, answer s = answer' s) :
    DifferAt specifier bound ds found found' := by
  have himports : ∀ name, (∀ b ∈ bound, b.name = name → b.source ≠ specifier) →
      found.imports.get? name = found'.imports.get? name :=
    fun name hname => h.imports.get?_congr h'.imports heq hname
  refine ⟨?_, fun i d hd huses => ?_, himports⟩
  · rw [h.routes, h'.routes, List.map_map, List.map_map]
    rfl
  · rw [h.routes, h'.routes, List.getElem?_map, List.getElem?_map, hd, Option.map_some,
      Option.map_some, Definition.module?_congr heq himports huses]

/-- **The extraction is exact.** It fails only where definitions do not end. Otherwise its routes are
the definitions in order, each as it is written but for its module: the answer to its own request
where it has a dynamic import, the module of its name in the table where it is a variable, none where
it is neither. The table follows the last binding that got a module. With fixed answers there is one
extraction, whatever state the resolver keeps, and an answer shows only in the routes and names that
use its specifier. -/
theorem extract_exact (source : Source) (importer : ModuleId) :
    (definitions source = none → ∀ (σ : Type) (resolve : Resolver σ) (s : σ),
      ∃ e, ((extract resolve source importer).run s).1 = .error e) ∧
    ∀ ds, definitions source = some ds →
      (∀ (σ : Type) (resolve : Resolver σ) (s : σ),
        ∃ found t, (extract resolve source importer).run s = (.ok found, t) ∧
          IsExtraction resolve importer (boundNames source) ds s found t) ∧
      (∀ answer : String → ModuleId → Answer, ∃ found,
        IsAnswered (answer · importer) (boundNames source) ds found ∧
        ∀ (σ : Type) (good : σ → Prop) (resolve : Resolver σ),
          (∀ s m, Settles good (resolve s m) (answer s m)) →
          Settles good (extract resolve source importer) (.ok found)) ∧
      ∀ (answer answer' : String → ModuleId → Answer) (specifier : String),
        (∀ s ≠ specifier, answer s importer = answer' s importer) →
        ∃ found found',
          value (extract (Resolver.stateless answer) source importer) = .ok found ∧
          value (extract (Resolver.stateless answer') source importer) = .ok found' ∧
          DifferAt specifier (boundNames source) ds found found' := by
  refine ⟨fun hends σ resolve s => exists_extract_error resolve importer hends s,
    fun ds hds => ⟨fun σ resolve s => exists_isExtraction resolve importer hds s, fun answer => ?_, ?_⟩⟩
  · obtain ⟨found, hvalue, hfound⟩ := exists_isAnswered answer importer hds
    refine ⟨found, hfound, fun σ good resolve hresolve => ?_⟩
    rw [← hvalue]
    exact mirrors_extract hresolve source importer
  · intro answer answer' specifier heq
    obtain ⟨found, hvalue, hfound⟩ := exists_isAnswered answer importer hds
    obtain ⟨found', hvalue', hfound'⟩ := exists_isAnswered answer' importer hds
    exact ⟨found, found', hvalue, hvalue', differAt_of_isAnswered hfound hfound' heq⟩

/-- A script with routes of every kind, and a name that is bound twice. -/
def mixedScript : Source :=
  Source.read .javascript
    ("import A from'./a';import\x7bA\x7dfrom'./b';createRouter(\x7broutes:[" ++
      "\x7bpath:'/a',component:A\x7d,\x7bpath:'/c',component:()=>import('./c')\x7d," ++
      "\x7bpath:'/n',component:0\x7d,\x7bpath:'/d',component:()=>import('./d')\x7d]\x7d)")

/-- The names and definitions of the mixed script. -/
lemma read_mixedScript :
    boundNames mixedScript = [⟨"A", "./a"⟩, ⟨"A", "./b"⟩] ∧
    definitions mixedScript =
      some [⟨"/a", "/a", .named "A"⟩, ⟨"/c", "/c", .dynamic "./c"⟩, ⟨"/n", "/n", .other⟩,
        ⟨"/d", "/d", .dynamic "./d"⟩] := by decide +kernel

/-- A resolver that fails for some specifiers and knows all others. -/
def failsOn (failing : List String) (specifier : String) (_ : ModuleId) : Answer :=
  if specifier ∈ failing then .failed "" else .found (specifier ++ ".js?v=1")

/-- Without an answer for the module of its last binding, a name stands for that of the one before;
a failed dynamic import leaves the routes behind it where they are. -/
theorem extract_exact_of_failures :
    ∃ ds found found',
      definitions mixedScript = some ds ∧
      value (extract (Resolver.stateless (failsOn ["./b"])) mixedScript "/r.js") = .ok found ∧
      value (extract (Resolver.stateless (failsOn ["./b", "./c"])) mixedScript "/r.js") =
        .ok found' ∧
      DifferAt "./c" (boundNames mixedScript) ds found found' ∧
      found.routes.map Route.entry = [some "./a.js", some "./c.js", none, some "./d.js"] ∧
      found'.routes.map Route.entry = [some "./a.js", none, none, some "./d.js"] := by
  obtain ⟨hbound, hds⟩ := read_mixedScript
  obtain ⟨found, found', hfound, hfound', hdiffer⟩ :=
    ((extract_exact mixedScript "/r.js").2 _ hds).2.2 (failsOn ["./b"]) (failsOn ["./b", "./c"])
      "./c" fun s hs => by simp [failsOn, hs]
  refine ⟨_, found, found', hds, hfound, hfound', hdiffer, ?_, ?_⟩
  · obtain ⟨notices, hvalue⟩ := exists_value_extract (failsOn ["./b"]) "/r.js" hds rfl
    rw [hbound, hfound, Except.ok.injEq] at hvalue
    rw [hvalue]
    rfl
  · obtain ⟨notices, hvalue⟩ := exists_value_extract (failsOn ["./b", "./c"]) "/r.js" hds rfl
    rw [hbound, hfound', Except.ok.injEq] at hvalue
    rw [hvalue]
    rfl

end Extractions

end Route

end RouteAssets
