import RouteAssets.Proofs.Build.Changes
import RouteAssets.Proofs.Route.Resolution

/-!
# Router files one by one

What the router files of a directory add is what each script among them adds by itself. A directory
**lists** in order of their names exactly the files directly inside it that can be read and are named
like a router file (`mem_routerFiles_iff_reads`, `pairwise_routerFiles`). The scripts among them are
extracted one after the other (`Extracts`); all that passes from one to the next is the state of the
resolver.

* **Joining** (`extractFiles_joins`): the routes of all scripts in order, and of two bindings of one
  name the later. Two directories with the same scripts directly inside them lead to the same routes.
-/

namespace RouteAssets

open RouteAssets.Script RouteAssets.Text

/-! ## Listing a directory -/

namespace Disk

variable {d : Disk} {p : Path}

/-- Whether a path names a file can be asked unless the path is too long. -/
lemma exists_isFile_iff : (∃ b, d.isFile p = .ok b) ↔ d.stat p ≠ .error .nameTooLong := by
  unfold isFile kind?
  rcases d.stat p with e | node
  · cases e <;> simp [Except.map]
  · simp [Except.map]

/-- Whether a path names a directory can be asked unless the path is too long. -/
lemma exists_isDirectory_iff : (∃ b, d.isDirectory p = .ok b) ↔ d.stat p ≠ .error .nameTooLong := by
  unfold isDirectory kind?
  rcases d.stat p with e | node
  · cases e <;> simp [Except.map]
  · simp [Except.map]

/-- What lies directly in a directory is listed once, in order of the names. -/
lemma pairwise_children (d : Disk) (p : Path) :
    (d.children p).Pairwise fun q r => before q.name r.name = true := by
  have hbelow : ∀ q ∈ d.children p, ∃ n, q.names = p.names ++ [n] := by
    intro q hq
    obtain ⟨hq, hlength⟩ := List.mem_filter.1 hq
    obtain ⟨-, inner, -, -, -, rfl⟩ := mem_descendants_iff.1 hq
    simp only [List.length_append, Nat.add_left_cancel_iff, beq_iff_eq] at hlength
    obtain ⟨n, rfl⟩ := List.length_eq_one_iff.1 hlength
    exact ⟨n, rfl⟩
  refine ((d.pairwise_descendants p).filter _).imp_of_mem fun {q r} hq hr hqr => ?_
  obtain ⟨m, hm⟩ := hbelow q hq
  obtain ⟨n, hn⟩ := hbelow r hr
  rw [hm, hn, namesBefore_append_left] at hqr
  simpa [Path.name, hm, hn, namesBefore] using hqr

/-- A filter whose test may fail keeps what its answers say, in order, unless the test fails. -/
lemma filterM_eq_ok_iff {ε α : Type} {f : α → Except ε Bool} {xs ys : List α} :
    xs.filterM f = .ok ys ↔
      (∀ x ∈ xs, ∃ b, f x = .ok b) ∧ ys = xs.filter fun x => (f x).toOption.getD false := by
  have haux : ∀ acc zs, List.filterAuxM f xs acc = .ok zs ↔ (∀ x ∈ xs, ∃ b, f x = .ok b) ∧
      zs = (xs.filter fun x => (f x).toOption.getD false).reverse ++ acc := by
    induction xs with
    | nil => simp [List.filterAuxM, pure, Except.pure, eq_comm]
    | cons x xs ih =>
      intro acc zs
      rw [List.filterAuxM, List.forall_mem_cons]
      rcases hx : f x with e | _ | _
      · simp [bind, Except.bind]
      · simp only [bind, Except.bind, cond_false]
        rw [ih]
        simp [hx, Except.toOption]
      · simp only [bind, Except.bind, cond_true]
        rw [ih]
        simp [hx, Except.toOption]
  rw [List.filterM]
  cases hzs : List.filterAuxM f xs [] with
  | error e =>
    have hnone : ¬ ∀ x ∈ xs, ∃ b, f x = .ok b := by
      intro hall
      cases hzs.symm.trans ((haux [] _).2 ⟨hall, rfl⟩)
    refine iff_of_false (fun h => ?_) fun h => hnone h.1
    cases h
  | ok zs =>
    obtain ⟨hall, rfl⟩ := (haux [] zs).1 hzs
    simp only [bind, Except.bind, pure, Except.pure, List.append_nil, List.reverse_reverse,
      Except.ok.injEq, and_iff_right hall, eq_comm (a := ys)]

end Disk

namespace Route

variable {d d' : Disk} {directory p : Path} {ps ps' : List Path}

/-- The path of a name directly inside a directory. -/
def below (directory : Path) (name : String) : Path :=
  { directory with names := directory.names ++ [name] }

/-- No path that listing a directory asks about is too long. -/
structure IsListable (d : Disk) (directory : Path) : Prop where
  self : d.stat directory ≠ .error .nameTooLong
  inside : d.isDirectory directory = .ok true → ∀ p ∈ d.children directory,
    d.stat p ≠ .error .nameTooLong

/-- The router files of a directory: those of its files that are named like one. -/
lemma routerFiles_eq_ok_iff : routerFiles d directory = .ok ps ↔ IsListable d directory ∧
    ps = if d.isDirectory directory = .ok true then
      (d.children directory).filter fun p => (d.isFile p).toOption.getD false && isRouterName p.name
    else [] := by
  have hself := Disk.exists_isDirectory_iff (d := d) (p := directory)
  unfold routerFiles
  rcases hdirectory : d.isDirectory directory with e | _ | _
  · have hlong : d.stat directory = .error .nameTooLong := by
      by_contra h
      obtain ⟨b, hb⟩ := hself.2 h
      cases hdirectory.symm.trans hb
    have hnot : ¬ IsListable d directory := fun h => h.self hlong
    simp [hnot, bind, Except.bind]
  · have hlistable : IsListable d directory :=
      ⟨hself.1 ⟨_, hdirectory⟩, fun h => by cases hdirectory.symm.trans h⟩
    simp [hlistable, bind, Except.bind, pure, Except.pure, eq_comm]
  · have hlistable : IsListable d directory ↔ ∀ p ∈ d.children directory,
        ∃ b, (do return isRouterName p.name && (← d.isFile p) : Except DiskError Bool) = .ok b := by
      constructor
      · intro h p hp
        obtain ⟨b, hb⟩ := Disk.exists_isFile_iff.2 (h.inside hdirectory p hp)
        exact ⟨isRouterName p.name && b, by rw [hb]; rfl⟩
      · intro h
        refine ⟨hself.1 ⟨_, hdirectory⟩, fun _ p hp => Disk.exists_isFile_iff.1 ?_⟩
        obtain ⟨b, hb⟩ := h p hp
        rcases hfile : d.isFile p with e | b'
        · rw [hfile] at hb
          cases hb
        · exact ⟨b', rfl⟩
    have htest : ∀ p, (do return isRouterName p.name && (← d.isFile p) :
        Except DiskError Bool).toOption.getD false =
          ((d.isFile p).toOption.getD false && isRouterName p.name) := by
      intro p
      rcases d.isFile p with e | b
      · rfl
      · exact Bool.and_comm _ _
    rw [hlistable, if_pos rfl, ← List.filter_congr fun p _ => htest p]
    exact Disk.filterM_eq_ok_iff

/-- Router files are listed once, in order of their names. -/
lemma pairwise_routerFiles (h : routerFiles d directory = .ok ps) :
    ps.Pairwise fun p q => before p.name q.name = true := by
  obtain ⟨-, rfl⟩ := routerFiles_eq_ok_iff.1 h
  split
  · exact (d.pairwise_children directory).filter _
  · exact List.Pairwise.nil

/-- A directory of which something can be read can be asked for. -/
lemma locate_of_readBytes_below {name : String} {bytes : List UInt8}
    (h : IsListable d directory) (hname : name ≠ "..")
    (hread : d.readBytes (below directory name) = .ok bytes) :
    ∃ place, d.locate directory = .ok place ∧ d.node? place = some .directory ∧
      place ++ [name] ∈ d.nodes.keys := by
  obtain ⟨q, hq, hbytes⟩ := Disk.readBytes_eq_ok_iff.1 hread
  obtain ⟨hcheck, hfollow⟩ := Disk.locate_eq_ok_iff.1 hq
  obtain ⟨place, hplace, hlast⟩ := Disk.exists_follow_of_append hfollow
  obtain ⟨hdirectory, ⟨hn, -⟩ | ⟨-, -, -, hlast⟩⟩ := Disk.follow_cons_eq_ok_iff.1 hlast
  · exact absurd hn hname
  cases hlast
  have hkey := Disk.mem_keys_of_node? (Disk.bytesAt?_eq_some_iff.1 hbytes) (by simp)
  refine ⟨place, Disk.locate_eq_ok_iff.2 ⟨?_, hplace⟩, hdirectory, hkey⟩
  -- a longer path has passed the check, so only the length of the shorter one is in question
  unfold Disk.checkPath at hcheck
  split at hcheck
  · cases hcheck
  rename_i hnul
  have hnul' : ¬ (directory.names.any fun n => n.toList.contains '\x00') = true := by
    intro h
    exact hnul (by simp only [below, List.any_append, h, Bool.true_or])
  by_cases hlong : Disk.pathLimit < Disk.byteCount directory.toString
  · have hself : Disk.checkPath directory = .error .nameTooLong := by
      rw [Disk.checkPath, if_neg hnul', if_pos hlong]
    exact absurd (by simp [Disk.stat, Disk.locate, hself, bind, Except.bind]) h.self
  · rw [Disk.checkPath, if_neg hnul', if_neg hlong]

/-- Router files are the files directly inside the directory that are named like one and can be
read. -/
lemma mem_routerFiles_iff_reads (h : routerFiles d directory = .ok ps) :
    p ∈ ps ↔ ∃ name bytes, p = below directory name ∧ isRouterName name = true ∧
      d.readBytes p = .ok bytes := by
  rw [Build.mem_routerFiles_iff h, Disk.isFile_eq_ok_true_iff]
  constructor
  · rintro ⟨-, hchild, ⟨bytes, hread⟩, hname⟩
    obtain ⟨hlisted, hdepth⟩ := List.mem_filter.1 hchild
    obtain ⟨place, inner, -, -, -, rfl⟩ := Disk.mem_descendants_iff.1 hlisted
    obtain ⟨name, rfl⟩ := List.length_eq_one_iff.1 (by simpa using hdepth)
    exact ⟨name, bytes, rfl, by simpa [Path.name] using hname, hread⟩
  · rintro ⟨name, bytes, rfl, hname, hread⟩
    have hup : name ≠ ".." := by
      rintro rfl
      exact absurd hname (by decide +kernel)
    obtain ⟨place, hplace, hdirectory, hkey⟩ :=
      locate_of_readBytes_below (routerFiles_eq_ok_iff.1 h).1 hup hread
    refine ⟨Disk.isDirectory_eq_ok_true_iff.2 ⟨place, hplace, hdirectory⟩, ?_, ⟨bytes, hread⟩,
      by simpa [Path.name, below] using hname⟩
    refine List.mem_filter.2 ⟨Disk.mem_descendants_iff.2 ⟨place, [name], hplace, by simp, hkey, rfl⟩,
      by simp [below]⟩

/-! ## Scripts of a directory -/

/-- The script that a file holds, if it can be read and has no syntax error. -/
def scriptAt? (d : Disk) (p : Path) : Option Source :=
  match Source.ofFile d p with
  | .ok source => if source.root?.isSome then some source else none
  | .error _ => none

/-- The scripts that some files hold, with their paths. -/
def scripts (d : Disk) (ps : List Path) : List (Path × Source) :=
  ps.filterMap fun p => (scriptAt? d p).map fun source => (p, source)

/-- A file that holds a script has been read. -/
lemma scriptAt?_eq_some_iff {source : Source} : scriptAt? d p = some source ↔
    Source.ofFile d p = .ok source ∧ ∃ root, source.root? = some root := by
  unfold scriptAt?
  cases Source.ofFile d p with
  | error e => simp
  | ok found =>
    simp only [Option.ite_none_right_eq_some, Option.some.injEq, Except.ok.injEq,
      Option.isSome_iff_exists]
    constructor
    · rintro ⟨hroot, rfl⟩
      exact ⟨rfl, hroot⟩
    · rintro ⟨rfl, hroot⟩
      exact ⟨hroot, rfl⟩

/-- The scripts of some files are theirs. -/
lemma mem_scripts_iff {x : Path × Source} :
    x ∈ scripts d ps ↔ x.1 ∈ ps ∧ scriptAt? d x.1 = some x.2 := by
  simp only [scripts, List.mem_filterMap, Option.map_eq_some_iff]
  constructor
  · rintro ⟨p, hp, source, hsource, rfl⟩
    exact ⟨hp, hsource⟩
  · rintro ⟨hp, hsource⟩
    exact ⟨x.1, hp, x.2, hsource, rfl⟩

/-! ## One script after the other -/

/-- Some scripts are extracted one after the other. Each finds the resolver in the state in which the
one before has left it. -/
inductive Extracts {σ : Type} (resolve : Resolver σ) :
    σ → List (Path × Source) → List Extraction → σ → Prop
  | nil (s : σ) : Extracts resolve s [] [] s
  | cons {s t u : σ} {x : Path × Source} {xs : List (Path × Source)} {e : Extraction}
      {es : List Extraction} (first : (extract resolve x.2 x.1.toString).run s = (.ok e, t))
      (rest : Extracts resolve t xs es u) : Extracts resolve s (x :: xs) (e :: es) u

/-- The extraction of a script on its own: no module of its routes comes from elsewhere than its own
requests and its own table of local names. -/
def IsOwnExtraction {σ : Type} (resolve : Resolver σ) (x : Path × Source) (e : Extraction) : Prop :=
  ∃ ds s t, definitions x.2 = some ds ∧
    IsExtraction resolve x.1.toString (boundNames x.2) ds s e t

/-- An extraction is made of others: their routes in order, and of two tables with a name the module
that the later one has for it. -/
structure Joins (es : List Extraction) (found : Extraction) : Prop where
  routes : found.routes = es.flatMap Extraction.routes
  imports : ∀ name m, found.imports.get? name = some m ↔
    ∃ e, IsLast (fun e => e.imports.get? name ≠ none) es e ∧ e.imports.get? name = some m

section Extracts

variable {σ : Type} {resolve : Resolver σ} {s t : σ} {xs : List (Path × Source)}
  {es : List Extraction}

/-- Scripts lead to their extractions in one way only. -/
lemma Extracts.unique {es' : List Extraction} {t' : σ} (h : Extracts resolve s xs es t)
    (h' : Extracts resolve s xs es' t') : es' = es ∧ t' = t := by
  induction h generalizing es' t' with
  | nil s =>
    cases h'
    exact ⟨rfl, rfl⟩
  | cons first rest ih =>
    cases h' with
    | cons first' rest' =>
      cases first.symm.trans first'
      obtain ⟨rfl, rfl⟩ := ih rest'
      exact ⟨rfl, rfl⟩

/-- Each script is extracted on its own. -/
lemma Extracts.isOwnExtraction (h : Extracts resolve s xs es t) :
    List.Forall₂ (IsOwnExtraction resolve) xs es := by
  induction h with
  | nil s => exact .nil
  | @cons s t u x xs e es first rest ih =>
    refine .cons ?_ ih
    cases hds : definitions x.2 with
    | none =>
      obtain ⟨e', he'⟩ := exists_extract_error resolve x.1.toString hds s
      rw [first] at he'
      cases he'
    | some ds =>
      obtain ⟨found, t', hrun, hfound⟩ := exists_isExtraction resolve x.1.toString hds s
      cases first.symm.trans hrun
      exact ⟨ds, s, t, hds, hfound⟩

/-- Where answers are fixed, each script is extracted as if it were the only one. -/
lemma Extracts.forall₂_value {good : σ → Prop} {answer : String → ModuleId → Answer}
    (hresolve : ∀ specifier m, Settles good (resolve specifier m) (answer specifier m))
    (h : Extracts resolve s xs es t) (hs : good s) :
    List.Forall₂ (fun x e => value (extract (Resolver.stateless answer) x.2 x.1.toString) = .ok e)
      xs es := by
  induction h with
  | nil s => exact .nil
  | @cons s t u x xs e es first rest ih =>
    obtain ⟨hvalue, ht⟩ := mirrors_extract hresolve x.2 x.1.toString s hs
    rw [first] at hvalue ht
    exact .cons hvalue.symm (ih ht)

/-- What tables merged one after the other have for a name. -/
lemma get?_foldl_merge_eq_some_iff (es : List Extraction) (name : String) (m : ModuleId) :
    (es.foldl (fun table e => table.merge e.imports) Table.empty).get? name = some m ↔
      ∃ e, IsLast (fun e => e.imports.get? name ≠ none) es e ∧ e.imports.get? name = some m := by
  induction es using List.reverseRecOn with
  | nil => simp [not_isLast_nil]
  | append_singleton es e ih =>
    simp only [List.foldl_concat, Table.get?_merge, isLast_concat_iff]
    rcases he : e.imports.get? name with _ | m'
    · simp [ih]
    · simp only [Option.some_or, Option.some.injEq, ne_eq, reduceCtorEq, not_false_eq_true,
        and_true, not_true_eq_false, false_and, or_false, exists_eq_left, he]

/-- A file that holds no script adds nothing but a notice, and nothing is asked for it. -/
lemma exists_extractFile_of_none {σ : Type} (resolve : Resolver σ) (h : scriptAt? d p = none) :
    ∃ notices, extractFile resolve d p = pure (.ok { Extraction.empty with notices }) := by
  unfold extractFile
  unfold scriptAt? at h
  cases hfile : Source.ofFile d p with
  | error e => exact ⟨[], rfl⟩
  | ok source =>
    rw [hfile] at h
    dsimp only
    cases hmessage : source.reading.message? with
    | some reason => exact ⟨_, rfl⟩
    | none =>
      obtain ⟨root, hroot⟩ := Reading.message?_eq_none_iff.1 hmessage
      simp [Source.root?, hroot] at h

/-- A file that holds a script adds its extraction. -/
lemma extractFile_of_some {source : Source} (h : scriptAt? d p = some source) :
    extractFile resolve d p = extract resolve source p.toString := by
  obtain ⟨hfile, hroot⟩ := scriptAt?_eq_some_iff.1 h
  have hmessage := Reading.message?_eq_none_iff.2 hroot
  simp only [extractFile, hfile, hmessage]

/-- Files are extracted by extracting the scripts among them one after the other. -/
lemma run_extractFiles {σ : Type} (resolve : Resolver σ)
    (hends : ∀ x ∈ scripts d ps, definitions x.2 ≠ none) (known : Extraction) (s : σ) :
    ∃ found es t, (extractFiles resolve d known ps).run s = (.ok found, t) ∧
      Extracts resolve s (scripts d ps) es t ∧
      found.routes = known.routes ++ es.flatMap Extraction.routes ∧
      found.imports = es.foldl (fun table e => table.merge e.imports) known.imports := by
  induction ps generalizing known s with
  | nil => exact ⟨known, [], s, rfl, .nil s, (List.append_nil _).symm, rfl⟩
  | cons p ps ih =>
    simp only [extractFiles, StateT.run_bind]
    cases hp : scriptAt? d p with
    | none =>
      have hscripts : scripts d (p :: ps) = scripts d ps := by simp [scripts, hp]
      obtain ⟨notices, hfile⟩ := exists_extractFile_of_none resolve hp
      rw [hscripts] at hends ⊢
      obtain ⟨found, es, t, hrun, hes, hroutes, himports⟩ :=
        ih hends (known.append { Extraction.empty with notices }) s
      rw [hfile]
      refine ⟨found, es, t, hrun, hes, ?_, himports⟩
      simpa [Extraction.append, Extraction.empty] using hroutes
    | some source =>
      have hscripts : scripts d (p :: ps) = (p, source) :: scripts d ps := by simp [scripts, hp]
      rw [hscripts, List.forall_mem_cons] at hends
      rw [hscripts, extractFile_of_some hp]
      obtain ⟨ds, hds⟩ := Option.ne_none_iff_exists'.1 hends.1
      obtain ⟨e, t, hfirst, -⟩ := exists_isExtraction resolve p.toString hds s
      obtain ⟨found, es, u, hrun, hes, hroutes, himports⟩ := ih hends.2 (known.append e) t
      rw [hfirst]
      refine ⟨found, e :: es, u, hrun, .cons hfirst hes, ?_, himports⟩
      rw [hroutes, Extraction.append, List.flatMap_cons, List.append_assoc]

end Extracts

/-! ## Two directories -/

/-- Each of some files is the same on two disks, or holds no script on either of them. -/
def AgreeOn (d d' : Disk) (ps : List Path) : Prop :=
  ∀ p ∈ ps, d'.readBytes p = d.readBytes p ∨ (scriptAt? d p = none ∧ scriptAt? d' p = none)

/-- Files that agree on two disks agree in either direction. -/
lemma AgreeOn.symm (h : AgreeOn d d' ps) : AgreeOn d' d ps :=
  fun p hp => (h p hp).imp Eq.symm And.symm

/-- Scripts are listed once, in order of their names. -/
lemma pairwise_scripts (h : routerFiles d directory = .ok ps) :
    (scripts d ps).Pairwise fun x y => before x.1.name y.1.name = true := by
  refine (pairwise_routerFiles h).filterMap _ fun p q hpq x hx y hy => ?_
  obtain ⟨_, -, rfl⟩ := Option.map_eq_some_iff.1 hx
  obtain ⟨_, -, rfl⟩ := Option.map_eq_some_iff.1 hy
  exact hpq

/-- A script that is listed on one disk is listed on every disk that has the same file. -/
lemma mem_scripts_of_agreeOn (h : routerFiles d directory = .ok ps)
    (h' : routerFiles d' directory = .ok ps') (hagree : AgreeOn d d' ps) {x : Path × Source}
    (hx : x ∈ scripts d ps) : x ∈ scripts d' ps' := by
  obtain ⟨hlisted, hscript⟩ := mem_scripts_iff.1 hx
  obtain ⟨name, bytes, hpath, hname, hread⟩ := (mem_routerFiles_iff_reads h).1 hlisted
  rcases hagree x.1 hlisted with hsame | ⟨hnone, -⟩
  · have hscript' : scriptAt? d' x.1 = some x.2 := by
      rw [← hscript, scriptAt?, scriptAt?, Build.ofFile_congr hsame]
    rw [← hsame] at hread
    exact mem_scripts_iff.2
      ⟨(mem_routerFiles_iff_reads h').2 ⟨name, bytes, hpath, hname, hread⟩, hscript'⟩
  · cases hscript.symm.trans hnone

/-- Directories whose files agree have the same scripts in the same order. -/
lemma scripts_congr (h : routerFiles d directory = .ok ps) (h' : routerFiles d' directory = .ok ps')
    (hagree : AgreeOn d d' (ps ++ ps')) : scripts d' ps' = scripts d ps := by
  obtain ⟨hps, hps'⟩ := List.forall_mem_append.1 hagree
  have hmem : ∀ x, x ∈ scripts d' ps' ↔ x ∈ scripts d ps := fun x =>
    ⟨mem_scripts_of_agreeOn h' h (AgreeOn.symm hps'), mem_scripts_of_agreeOn h h' hps⟩
  exact @eq_of_ascending _ (fun x y => before x.1.name y.1.name) _ _
    (fun x => before_irrefl x.1.name) before_trans (pairwise_scripts h') (pairwise_scripts h) hmem

/-- **Router files are extracted one by one.** A directory can be listed unless a path is too long,
and lists the files directly inside it that are named like a router file and can be read. If the
definitions of each script among them end, their extraction is joined from those of the scripts in
order of their names, and each of these comes from its own requests and its own local names alone.
Whatever else lies on the disk, scripts that are the same lead to the same routes, the same local
names and the same state of the resolver. -/
theorem extractFiles_joins (d : Disk) (directory : Path) :
    ((∃ ps, routerFiles d directory = .ok ps) ↔ IsListable d directory) ∧
    ∀ ps, routerFiles d directory = .ok ps →
      (ps.Pairwise fun p q => before p.name q.name = true) ∧
      (∀ p, p ∈ ps ↔ ∃ name bytes, p = below directory name ∧ isRouterName name = true ∧
        d.readBytes p = .ok bytes) ∧
      ((∀ x ∈ scripts d ps, definitions x.2 ≠ none) →
        ∀ (σ : Type) (resolve : Resolver σ) (s : σ), ∃ found es t,
          (extractFiles resolve d .empty ps).run s = (.ok found, t) ∧
          Extracts resolve s (scripts d ps) es t ∧ Joins es found ∧
          List.Forall₂ (IsOwnExtraction resolve) (scripts d ps) es ∧
          (∀ (good : σ → Prop) (answer : String → ModuleId → Answer),
            (∀ specifier m, Settles good (resolve specifier m) (answer specifier m)) → good s →
            List.Forall₂
              (fun x e => value (extract (Resolver.stateless answer) x.2 x.1.toString) = .ok e)
              (scripts d ps) es) ∧
          ∀ d' ps', routerFiles d' directory = .ok ps' → AgreeOn d d' (ps ++ ps') →
            ∃ found', (extractFiles resolve d' .empty ps').run s = (.ok found', t) ∧
              found'.routes = found.routes ∧ found'.imports = found.imports) := by
  refine ⟨⟨fun ⟨ps, h⟩ => (routerFiles_eq_ok_iff.1 h).1, fun h => ?_⟩, fun ps h => ?_⟩
  · exact ⟨_, routerFiles_eq_ok_iff.2 ⟨h, rfl⟩⟩
  refine ⟨pairwise_routerFiles h, fun p => mem_routerFiles_iff_reads h, fun hends σ resolve s => ?_⟩
  obtain ⟨found, es, t, hrun, hes, hroutes, himports⟩ :=
    run_extractFiles resolve hends .empty s
  have hjoins : Joins es found := by
    refine ⟨hroutes, fun name m => ?_⟩
    rw [himports]
    exact get?_foldl_merge_eq_some_iff es name m
  refine ⟨found, es, t, hrun, hes, hjoins, hes.isOwnExtraction,
    fun good answer hresolve hs => hes.forall₂_value hresolve hs, fun d' ps' h' hagree => ?_⟩
  have hscripts := scripts_congr h h' hagree
  rw [← hscripts] at hends hes
  obtain ⟨found', es', t', hrun', hes', hroutes', himports'⟩ :=
    run_extractFiles resolve hends .empty s
  obtain ⟨rfl, rfl⟩ := hes.unique hes'
  exact ⟨found', hrun', hroutes'.trans hroutes.symm, himports'.trans himports.symm⟩

/-- A disk with two directories, one inside the other, and some files. -/
def diskOf (files : List (List String × String)) : Disk where
  nodes := Table.ofList ((["r"], .directory) :: (["r", "in"], .directory) ::
    files.map fun (place, text) => (place, .file (writeUtf8 text.toList)))
  workingDirectory := []

/-- Two router files, the second of which names what only the first one imports. -/
def routerDisk : Disk :=
  diskOf [(["r", "b.js"], "createRouter(\x7broutes:[\x7bcomponent:A\x7d]\x7d)"),
    (["r", "a.js"], "import A from'./x';createRouter(\x7broutes:[\x7bcomponent:A\x7d]\x7d)")]

/-- The same router files with a broken one between them and another one further inside. -/
def crowdedDisk : Disk :=
  diskOf [(["r", "ab.js"], "import A from"),
    (["r", "b.js"], "createRouter(\x7broutes:[\x7bcomponent:A\x7d]\x7d)"),
    (["r", "in", "a.js"], "createRouter(\x7broutes:[\x7bcomponent:()=>import('./y')\x7d]\x7d)"),
    (["r", "a.js"], "import A from'./x';createRouter(\x7broutes:[\x7bcomponent:A\x7d]\x7d)")]

/-- The routes of two files do not change when a broken file comes between them, and the name that
the first file imports stands for nothing in the second. -/
theorem extractFiles_joins_of_broken :
    ∃ found found' t,
      (extractFiles (Resolver.stateless fun s _ => .found s) routerDisk .empty
        [below ⟨.root, ["r"]⟩ "a.js", below ⟨.root, ["r"]⟩ "b.js"]).run () = (.ok found, t) ∧
      (extractFiles (Resolver.stateless fun s _ => .found s) crowdedDisk .empty
        [below ⟨.root, ["r"]⟩ "a.js", below ⟨.root, ["r"]⟩ "ab.js",
          below ⟨.root, ["r"]⟩ "b.js"]).run () = (.ok found', t) ∧
      found'.routes = found.routes ∧ found.routes.map Route.entry = [some "./x", none] := by
  have hlisted : routerFiles routerDisk ⟨.root, ["r"]⟩ =
      .ok [below ⟨.root, ["r"]⟩ "a.js", below ⟨.root, ["r"]⟩ "b.js"] := by decide +kernel
  have hlisted' : routerFiles crowdedDisk ⟨.root, ["r"]⟩ =
      .ok [below ⟨.root, ["r"]⟩ "a.js", below ⟨.root, ["r"]⟩ "ab.js",
        below ⟨.root, ["r"]⟩ "b.js"] := by decide +kernel
  obtain ⟨found, es, t, hrun, -, -, -, -, htwo⟩ :=
    ((extractFiles_joins routerDisk ⟨.root, ["r"]⟩).2 _ hlisted).2.2 (by decide +kernel) Unit
      (Resolver.stateless fun s _ => .found s) ()
  obtain ⟨found', hrun', hroutes, -⟩ := htwo crowdedDisk _ hlisted' (by
    unfold AgreeOn
    decide +kernel)
  refine ⟨found, found', t, hrun, hrun', hroutes, ?_⟩
  have hentries : ((value (extractFiles (Resolver.stateless fun s _ => .found s) routerDisk .empty
      [below ⟨.root, ["r"]⟩ "a.js", below ⟨.root, ["r"]⟩ "b.js"])).toOption.map
        fun e => e.routes.map Route.entry) = some [some "./x", none] := by decide +kernel
  rw [value, hrun] at hentries
  simpa only [Except.toOption, Option.map_some, Option.some.injEq] using hentries

end Route

end RouteAssets
