import RouteAssets.Build.Reading
import RouteAssets.Proofs.Build.Outcome
import RouteAssets.Proofs.Disk.Normal
import RouteAssets.Proofs.Module.Alias
import RouteAssets.Proofs.Module.Canonical
import RouteAssets.Proofs.Module.Memory

/-!
# The file that a specifier leads to

A specifier that is relative, or that an alias matches, has one **base** (`IsBase`), and what is found
is the first file among the base, the base with an extension, and the index files in the base
(`Rules.candidates`, `IsFirstFile`).

* **Probing** (`probe_eq_some_iff`): exactly the first file is found, and nothing where a path in
  front of it cannot be asked for.
* **Identifiers** (`sameFile_moduleAt`, `isReadAs_moduleAt_iff`): on a disk the path is followed as it
  stands, while the identifier is its normalised text. On a tree both lead to one file.
* **Look-ups** (`resolve_firstFile_iff`): which module is found, and that it is the one that is read
  in its file unless two slashes are left behind the alias (`resolve_firstFile_iff_of_slashes`).
-/

namespace RouteAssets

open RouteAssets.Text

/-- A canonical identifier: the text of a path from the root, in which no name is empty, a dot or a
parent name. -/
def ModuleId.IsCanonical (m : ModuleId) : Prop := ∃ p : Path, p.IsCanonical ∧ m = p.toString

/-- Two paths lead to one file. -/
def Disk.SameFile (d : Disk) (p q : Path) : Prop :=
  ∃ place, d.locate p = .ok place ∧ d.locate q = .ok place ∧ (d.bytesAt? place).isSome = true

/-- The identifier under which the file at a path is read, whatever path of it is given. -/
structure Disk.IsReadAs (d : Disk) (file : Path) (m : ModuleId) : Prop where
  resolved : ∀ p, d.SameFile p file → (d.resolve p).toString = m
  opened : ∀ (o : Options) (p : Path) (b b' : Build) (x : Build.Opened), d.SameFile p file →
    Build.outcome (Build.openModule o d p) b = (.ok (some x), b') → x.module = m

namespace Path

/-- Which names a path can take for its last one, and the path with such a name. -/
lemma withName?_eq_some_iff {p q : Path} {name : String} : p.withName? name = some q ↔
    (p.name ≠ "" ∧ name ≠ "" ∧ name ≠ "." ∧ '/' ∉ name.toList) ∧
      q = { p with names := p.names.dropLast ++ [name] } := by
  unfold withName?
  by_cases h : (p.name == "" || name == "" || name == "." || name.toList.contains '/') = true
  · rw [if_pos h]
    refine iff_of_false nofun fun hq => ?_
    simp only [Bool.or_eq_true, beq_iff_eq, List.contains_eq_mem, decide_eq_true_eq] at h
    tauto
  · rw [if_neg h, Option.some.injEq]
    simp only [Bool.or_eq_true, beq_iff_eq, List.contains_eq_mem, decide_eq_true_eq, not_or] at h
    constructor
    · rintro rfl
      exact ⟨⟨h.1.1.1, h.1.1.2, h.1.2, h.2⟩, rfl⟩
    · rintro ⟨-, rfl⟩
      rfl

/-- A text denotes an absolute path when there is a slash at its front. -/
lemma isAbsolute_ofString_iff {s : String} :
    (ofString s).isAbsolute = true ↔ s.toList.head? = some '/' := by
  unfold ofString isAbsolute
  rcases s.toList with _ | ⟨c, cs⟩
  · simp [anchorOf]
  · by_cases hc : c = '/'
    · subst hc
      unfold anchorOf
      split <;> simp_all
    · simp [anchorOf, hc]

end Path

namespace Lookup

/-! ## Probing -/

/-- What is tried for a base, in order: the base, the base with each extension, and where it is a
directory its index file with each extension. -/
def Rules.candidates (r : Rules) (d : Disk) (base : Path) : List (Except Error Path) :=
  .ok base :: r.extensions.map (withExtension base) ++
    if d.isDirectory base = .ok true then
      r.extensions.map fun e => .ok (base.joinText ("index" ++ e))
    else []

/-- The first file among some paths: each path in front of it can be asked for and is no file. -/
def IsFirstFile (d : Disk) (candidates : List (Except Error Path)) (file : Path) : Prop :=
  ∃ before after, candidates = before ++ .ok file :: after ∧
    (∀ c ∈ before, ∃ p, c = .ok p ∧ d.isFile p = .ok false) ∧ d.isFile file = .ok true

section Probing

variable {r : Rules} {d : Disk} {base file p : Path} {c : Except Error Path}
  {cs ds : List (Except Error Path)} {e : String}

/-- The first file is the first path, or it is the first among the others. -/
lemma isFirstFile_cons_iff : IsFirstFile d (c :: cs) file ↔ ∃ p, c = .ok p ∧
    (d.isFile p = .ok true ∧ file = p ∨ d.isFile p = .ok false ∧ IsFirstFile d cs file) := by
  constructor
  · rintro ⟨before, after, hsplit, hbefore, hfile⟩
    rcases before with _ | ⟨c', before⟩
    · obtain ⟨rfl, -⟩ := List.cons.inj hsplit
      exact ⟨file, rfl, .inl ⟨hfile, rfl⟩⟩
    · obtain ⟨rfl, hrest⟩ := List.cons.inj hsplit
      obtain ⟨⟨p, hp, hno⟩, hbefore⟩ := List.forall_mem_cons.1 hbefore
      exact ⟨p, hp, .inr ⟨hno, before, after, hrest, hbefore, hfile⟩⟩
  · rintro ⟨p, rfl, ⟨hp, rfl⟩ | ⟨hp, before, after, rfl, hbefore, hfile⟩⟩
    · exact ⟨[], cs, rfl, by simp, hp⟩
    · exact ⟨.ok p :: before, after, rfl, List.forall_mem_cons.2 ⟨⟨p, rfl, hp⟩, hbefore⟩, hfile⟩

/-- Asking about a path is asking the disk. -/
@[simp] lemma onPath_eq_ok_iff {α : Type} {x : Except DiskError α} {a : α} :
    onPath p x = .ok a ↔ x = .ok a := by
  cases x <;> simp [onPath]

/-- The search ends at the first file. -/
lemma firstFile_eq_some_iff : firstFile d cs = .ok (some file) ↔ IsFirstFile d cs file := by
  induction cs with
  | nil =>
    refine iff_of_false nofun ?_
    rintro ⟨before, after, hsplit, -⟩
    simp at hsplit
  | cons c cs ih =>
    rw [isFirstFile_cons_iff, ← ih]
    rcases c with e | p
    · simp [firstFile]
    · rcases hp : d.isFile p with e | _ | _ <;>
        simp [firstFile, hp, onPath, bind, Except.bind, pure, Except.pure, eq_comm]

/-- Among more paths the search goes on behind those without a file. -/
lemma firstFile_append : firstFile d (cs ++ ds) = (do
    match ← firstFile d cs with
    | some p => return some p
    | none => firstFile d ds) := by
  induction cs with
  | nil => rfl
  | cons c cs ih =>
    rcases c with e | p
    · rfl
    · rcases hp : d.isFile p with e | _ | _
      · simp only [List.cons_append, firstFile, hp, onPath]
        rfl
      · simp only [List.cons_append, firstFile, hp, onPath]
        exact ih
      · simp only [List.cons_append, firstFile, hp, onPath]
        rfl

/-- **Probing finds the first file.** -/
lemma probe_eq_some_iff : r.probe d base = .ok (some file) ↔
    IsFirstFile d (r.candidates d base) file := by
  rw [← firstFile_eq_some_iff, Rules.candidates, firstFile_append, Rules.probe]
  rcases firstFile d (.ok base :: r.extensions.map (withExtension base)) with e | _ | p
  · rfl
  · -- without a file in front the answers differ only where the disk cannot tell a directory
    rcases hdirectory : d.isDirectory base with e | _ | _ <;>
      simp [onPath, bind, Except.bind, pure, Except.pure, firstFile]
  · rfl

end Probing

/-! ## Identifiers of files -/

section Identifiers

variable {r : Rules} {d : Disk} {base file p q : Path} {e : String}

/-- An extension is added to the last name, if there is one and the extension does not end it. -/
lemma withExtension_eq_ok_iff : withExtension base e = .ok p ↔
    (base.name ≠ "" ∧ base.name ++ e ≠ "" ∧ base.name ++ e ≠ "." ∧ '/' ∉ (base.name ++ e).toList) ∧
      p = { base with names := base.names.dropLast ++ [base.name ++ e] } := by
  rw [← Path.withName?_eq_some_iff]
  unfold withExtension
  cases base.withName? (base.name ++ e) <;> simp

/-- What is tried for a base starts as the base does, and can be written if the base can. -/
lemma spec_of_mem_candidates (hbase : base.IsWritten) (h : .ok file ∈ r.candidates d base) :
    file.anchor = base.anchor ∧ file.IsWritten := by
  rw [Rules.candidates, List.cons_append, List.mem_cons, List.mem_append] at h
  rcases h with h | h | h
  · cases h
    exact ⟨rfl, hbase⟩
  · obtain ⟨e, -, he⟩ := List.mem_map.1 h
    obtain ⟨⟨-, hempty, hdot, hslash⟩, rfl⟩ := withExtension_eq_ok_iff.1 he
    refine ⟨rfl, fun n hn => ?_⟩
    rcases List.mem_append.1 hn with hn | hn
    · exact hbase n (List.dropLast_subset _ hn)
    · rw [List.mem_singleton.1 hn]
      exact ⟨hempty, hdot, hslash⟩
  · split at h
    · obtain ⟨e, -, he⟩ := List.mem_map.1 h
      cases he
      have hrelative : (Path.ofString ("index" ++ e)).isAbsolute = false := by
        rw [Bool.eq_false_iff, ne_eq, Path.isAbsolute_ofString_iff]
        simp
      exact ⟨Path.anchor_join base hrelative, hbase.join (Path.isWritten_ofString _)⟩
    · exact absurd h List.not_mem_nil

/-- The identifier of a file leads to the file. -/
lemma sameFile_moduleAt (hd : d.IsTree) (habsolute : file.isAbsolute = true) (hw : file.IsWritten)
    (hfile : d.isFile file = .ok true) : d.SameFile (Path.ofString (moduleAt file)) file := by
  obtain ⟨bytes, hread⟩ := Disk.isFile_eq_ok_true_iff.1 hfile
  obtain ⟨place, hplace, hbytes⟩ := Disk.readBytes_eq_ok_iff.1 hread
  refine ⟨place, ?_, hplace, by simp [hbytes]⟩
  rw [moduleAt, Path.ofString_toString hw.normalize]
  exact hd.locate_normalize habsolute hplace (Disk.bytesAt?_eq_some_iff.1 hbytes)

/-- The identifier of a file is canonical unless its path has two slashes at the front. -/
lemma isCanonical_moduleAt_iff (habsolute : file.isAbsolute = true) (hw : file.IsWritten) :
    (moduleAt file).IsCanonical ↔ file.anchor = .root := by
  constructor
  · rintro ⟨p, hp, h⟩
    have hnormal : file.normalize = p := Path.toString_inj hw.normalize hp.isWritten h
    exact (congrArg Path.anchor hnormal).trans hp.anchor_eq
  · intro hanchor
    exact ⟨file.normalize, ⟨hanchor, hw.normalize, Path.not_mem_normalize habsolute⟩, rfl⟩

/-- Paths that lead to one file of a tree are resolved alike. -/
lemma resolve_eq_of_sameFile (hd : d.IsTree) (h : d.SameFile p q) : d.resolve p = d.resolve q := by
  obtain ⟨place, hp, hq, -⟩ := h
  exact Disk.resolve_eq_of_names_eq ((hd.locate_eq hp).symm.trans (hd.locate_eq hq))

/-- A module that is read has the identifier of its resolved path. -/
lemma module_of_openModule {o : Options} {b b' : Build} {x : Build.Opened}
    (h : Build.outcome (Build.openModule o d p) b = (.ok (some x), b')) :
    x.module = (d.resolve p).toString := by
  unfold Build.openModule at h
  dsimp only at h
  split at h
  · cases h
  · obtain ⟨source, _, -, h⟩ := Build.exists_of_outcome_bind h
    cases hroot : source.root? with
    | none =>
      simp only [hroot] at h
      obtain ⟨_, _, -, h⟩ := Build.exists_of_outcome_bind h
      cases h
    | some root =>
      simp only [hroot] at h
      obtain ⟨_, _, -, h⟩ := Build.exists_of_outcome_bind h
      obtain ⟨_, _, -, h⟩ := Build.exists_of_outcome_bind h
      obtain ⟨_, _, -, h⟩ := Build.exists_of_outcome_bind h
      cases h
      rfl

/-- The identifier of a file is the one under which it is read unless its path has two slashes at
the front. -/
lemma isReadAs_moduleAt_iff (hd : d.IsTree) (habsolute : file.isAbsolute = true)
    (hw : file.IsWritten) (hfile : d.isFile file = .ok true) :
    d.IsReadAs file (moduleAt file) ↔ file.anchor = .root := by
  rw [← moduleAt_eq_resolve_iff d habsolute hw]
  constructor
  · intro h
    obtain ⟨place, -, hplace, hthere⟩ := sameFile_moduleAt hd habsolute hw hfile
    exact (h.resolved file ⟨place, hplace, hplace, hthere⟩).symm
  · intro h
    have hresolved : ∀ p, d.SameFile p file → (d.resolve p).toString = moduleAt file :=
      fun p hp => by rw [resolve_eq_of_sameFile hd hp, h]
    exact ⟨hresolved, fun o p b b' x hp hopen => (module_of_openModule hopen).trans (hresolved p hp)⟩

end Identifiers

/-! ## Bases -/

/-- Rules with a canonical root, whose aliases have different keys without a slash at the end, and
targets that are given relative to the root. -/
structure Rules.IsPlain (r : Rules) : Prop where
  root_canonical : r.root.IsCanonical
  keys_nodup : (r.aliases.map Alias.key).Nodup
  stem_eq : ∀ a ∈ r.aliases, a.stem = a.key
  target_below : ∀ a ∈ r.aliases,
    ∃ t, (Path.ofString t).isAbsolute = false ∧ a.target = r.root.under t

/-- The base of a specifier: what the matching alias with the longest key gives to it, and where no
alias matches the relative path in the directory of the importer. -/
inductive Rules.IsBase (r : Rules) (s : String) (directory : Path) : Path → Prop
  | aliased {a : Alias} {base : Path} (longest : r.IsLongest s a) (gives : a.Gives s base) :
      r.IsBase s directory base
  | relative (free : ∀ a ∈ r.aliases, ¬ a.Matches s) (written : isRelative s = true) :
      r.IsBase s directory (directory.joinText s)

/-- What is left of a specifier behind the alias with the longest key has two slashes at its front,
and not three. -/
def Rules.IsDoubled (r : Rules) (s : String) : Prop :=
  ∃ a inner, r.IsLongest s a ∧ s = a.stem ++ "/" ++ inner ∧
    (Path.ofString inner).anchor = .doubleRoot

section Bases

variable {r : Rules} {d : Disk} {a b : Alias} {s specifier : String} {directory base base' : Path}
  {m : ModuleId}

/-- A key without a slash at its end is in front of what its alias matches. -/
lemma Alias.front_of_matches (ha : a.stem = a.key) (h : a.Matches s) :
    a.key.toList <+: s.toList := by
  obtain ⟨base, hgives⟩ := h
  rw [← ha]
  cases hgives with
  | whole => exact List.prefix_refl _
  | below inner =>
    rw [String.append_assoc, String.toList_append]
    exact List.prefix_append _ _

/-- By plain rules one alias matches with the longest key. -/
lemma Rules.IsLongest.unique (hr : r.IsPlain) (ha : r.IsLongest s a) (hb : r.IsLongest s b) :
    a = b := by
  have hlength : a.key.length = b.key.length :=
    Nat.le_antisymm (hb.longest a ha.mem ha.matched) (ha.longest b hb.mem hb.matched)
  rw [← String.length_toList, ← String.length_toList] at hlength
  have hfront := List.prefix_of_prefix_length_le
    (Alias.front_of_matches (hr.stem_eq a ha.mem) ha.matched)
    (Alias.front_of_matches (hr.stem_eq b hb.mem) hb.matched) (Nat.le_of_eq hlength)
  have hkey : a.key = b.key := String.toList_inj.1 (hfront.eq_of_length hlength)
  exact List.inj_on_of_nodup_map hr.keys_nodup ha.mem hb.mem hkey

/-- What is left of a specifier is left behind its one alias with the longest key. -/
lemma Rules.IsLongest.isDoubled_iff {inner : String} (hr : r.IsPlain)
    (h : r.IsLongest (a.stem ++ "/" ++ inner) a) :
    r.IsDoubled (a.stem ++ "/" ++ inner) ↔ (Path.ofString inner).anchor = .doubleRoot := by
  constructor
  · rintro ⟨b, inner', hb, hs, hanchor⟩
    obtain rfl := h.unique hr hb
    rwa [(String.append_right_inj _).1 hs]
  · exact fun hanchor => ⟨a, inner, h, rfl, hanchor⟩

/-- A specifier has one base. -/
lemma Rules.IsBase.unique (hr : r.IsPlain) (h : r.IsBase s directory base)
    (h' : r.IsBase s directory base') : base = base' := by
  cases h with
  | aliased longest gives =>
    cases h' with
    | aliased longest' gives' =>
      obtain rfl := longest.unique hr longest'
      rw [← Alias.base?_eq_some_iff] at gives gives'
      exact Option.some.inj (gives.symm.trans gives')
    | relative free => exact absurd longest.matched (free _ longest.mem)
  | relative free =>
    cases h' with
    | aliased longest' => exact absurd longest'.matched (free _ longest'.mem)
    | relative => rfl

/-- What is looked up for a specifier that an alias matches, or that is relative, is its base. -/
lemma exists_isBase (directory : Path)
    (h : isRelative s = true ∨ ∃ a ∈ r.aliases, a.Matches s) :
    ∃ base, r.bases s directory = [base] ∧ r.IsBase s directory base := by
  rcases hbase : r.aliasBase? s with _ | base
  · have hfree : ∀ a ∈ r.aliases, ¬ a.Matches s := by
      intro a ha hmatch
      have hsome := isSome_aliasBase?_iff.2 ⟨a, ha, hmatch⟩
      rw [hbase] at hsome
      cases hsome
    have hrelative := h.resolve_right fun ⟨a, ha, hmatch⟩ => hfree a ha hmatch
    exact ⟨_, bases_of_isRelative hbase hrelative directory, .relative hfree hrelative⟩
  · obtain ⟨a, hlongest, hgives⟩ := aliasBase?_eq_some hbase
    exact ⟨base, bases_of_aliasBase? hbase directory, .aliased hlongest hgives⟩

/-- A relative specifier has a dot at its front. -/
lemma startsWith_dot_of_isRelative (h : isRelative s = true) : startsWith s "." = true := by
  rw [startsWith_iff]
  simp only [isRelative, Bool.or_eq_true, startsWith_iff, beq_iff_eq] at h
  obtain ((⟨rest, rfl⟩ | ⟨rest, rfl⟩) | rfl) | rfl := h
  · exact ⟨"/" ++ rest, by rw [← String.append_assoc]; rfl⟩
  · exact ⟨"./" ++ rest, by rw [← String.append_assoc]; rfl⟩
  · exact ⟨"", rfl⟩
  · exact ⟨".", rfl⟩

/-- A relative specifier is no absolute path. -/
lemma isAbsolute_of_isRelative (h : isRelative s = true) : (Path.ofString s).isAbsolute = false := by
  obtain ⟨rest, rfl⟩ := startsWith_iff.1 (startsWith_dot_of_isRelative h)
  rw [Bool.eq_false_iff, ne_eq, Path.isAbsolute_ofString_iff]
  simp

/-- By plain rules a specifier that is relative, or that an alias matches, names no package. -/
lemma package_eq_none_of_based (hr : r.IsPlain)
    (h : isRelative s = true ∨ ∃ a ∈ r.aliases, a.Matches s) : r.package d s = .ok none := by
  refine package_eq_none ?_
  rcases h with hrelative | ⟨a, ha, hmatch⟩
  · rw [startsWith_dot_of_isRelative hrelative]
    rfl
  · rw [claims_of_matches hr.stem_eq ha hmatch, Bool.or_true]

/-- What is found with a single base, and without packages. -/
lemma find_eq_some_iff (hbases : r.bases (bare specifier) directory = [base])
    (hpackage : r.package d (bare specifier) = .ok none) :
    r.find d specifier directory = .ok (some m) ↔ isVirtual (bare specifier) = false ∧
      ∃ file, IsFirstFile d (r.candidates d base) file ∧ m = moduleAt file := by
  simp only [← probe_eq_some_iff]
  rw [← probeAll_singleton, ← hbases]
  rcases hvirtual : isVirtual (bare specifier) with _ | _
  · rcases hprobe : r.probeAll d (r.bases (bare specifier) directory) with e | _ | file
    · simp [find_of_error hvirtual hprobe]
    · simp [find_of_no_file hvirtual hprobe, hpackage, Except.map]
    · simp [find_of_file hvirtual hprobe, eq_comm]
  · simp [find_of_isVirtual hvirtual]

/-- The base of a specifier is an absolute path. It has two slashes at its front just if they are
left of the specifier. -/
lemma spec_of_isBase (hr : r.IsPlain) (hdirectory : directory.anchor = .root)
    (hwritten : directory.IsWritten) (h : r.IsBase s directory base) :
    base.isAbsolute = true ∧ base.IsWritten ∧ (base.anchor = .root ↔ ¬ r.IsDoubled s) := by
  cases h with
  | relative free written =>
    have hanchor : (directory.joinText s).anchor = .root :=
      (Path.anchor_join directory (isAbsolute_of_isRelative written)).trans hdirectory
    have habsolute := Path.isAbsolute_of_anchor_eq hanchor
    refine ⟨habsolute, hwritten.join (Path.isWritten_ofString s), iff_of_true hanchor ?_⟩
    rintro ⟨a, -, hlongest, -⟩
    exact free a hlongest.mem hlongest.matched
  | @aliased a _ longest gives =>
    obtain ⟨t, ht, htarget⟩ := hr.target_below a longest.mem
    have hanchor : a.target.anchor = .root := by
      rw [htarget]
      exact (Path.anchor_join r.root ht).trans hr.root_canonical.anchor_eq
    have habsolute := Path.isAbsolute_of_anchor_eq hanchor
    have hwritten : a.target.IsWritten :=
      htarget ▸ hr.root_canonical.isWritten.join (Path.isWritten_ofString t)
    cases gives with
    | whole =>
      refine ⟨habsolute, hwritten, iff_of_true hanchor ?_⟩
      rintro ⟨b, inner, hlongest, hs, -⟩
      obtain rfl := longest.unique hr hlongest
      exact ne_append_slash _ _ hs
    | below inner =>
      refine ⟨Path.isAbsolute_join habsolute, hwritten.join (Path.isWritten_ofString inner), ?_⟩
      rw [longest.isDoubled_iff hr, Path.joinText, Path.join]
      rcases hinner : (Path.ofString inner).anchor with _ | _ | _ <;>
        simp [Path.isAbsolute, hinner, hanchor]

end Bases

/-! ## Look-ups -/

/-- A module with a canonical identifier lies in a directory below the root. -/
lemma anchor_directoryOf {importer : ModuleId} (h : importer.IsCanonical) :
    (directoryOf importer).anchor = .root := by
  obtain ⟨p, hp, rfl⟩ := h
  have hcut : cutAt '?' p.toString.toList =
      (Path.Anchor.text .root).toList ++ cutAt '?' (joinWith "/" p.names).toList := by
    simp [Path.toString, hp.anchor_eq, Path.Anchor.text, cutAt]
  have hfront : (cutAt '?' (joinWith "/" p.names).toList).head? ≠ some '/' := by
    have hhead := hp.isWritten.head?_joinWith
    generalize (joinWith "/" p.names).toList = cs at hhead ⊢
    rcases cs with _ | ⟨c, cs⟩
    · simp [cutAt]
    · by_cases hc : c = '?'
      · simp [cutAt, hc]
      · simpa [cutAt, hc] using hhead
  simp only [directoryOf, Path.parent, Path.ofString, ModuleId.withoutQuery, upTo,
    String.toList_ofList, hcut]
  exact Path.anchorOf_text_append _ hfront

/-- **A look-up answers the first file of its base.** Let the disk be a tree, the rules plain and the
importer canonical. A specifier that is relative, or that an alias matches, has one base. What is
found is the identifier of the first file of this base. It leads to the file, and it is canonical,
and the one under which the file is read, unless two slashes are left behind the alias. -/
theorem resolve_firstFile_iff {r : Rules} {d : Disk} (hd : d.IsTree) (hr : r.IsPlain)
    {specifier : String} {importer : ModuleId} (himporter : importer.IsCanonical)
    (hs : isRelative (bare specifier) = true ∨ ∃ a ∈ r.aliases, a.Matches (bare specifier))
    {memory : Memory} (hmemory : memory.Coherent r d) :
    ∃ base, (∀ p, r.IsBase (bare specifier) (directoryOf importer) p ↔ p = base) ∧
      (∀ m, ((r.resolve d specifier importer).run memory).1 = .ok (some m) ↔
        isVirtual (bare specifier) = false ∧
          ∃ file, IsFirstFile d (r.candidates d base) file ∧ m = moduleAt file) ∧
      ∀ file, IsFirstFile d (r.candidates d base) file →
        d.SameFile (Path.ofString (moduleAt file)) file ∧
        ((moduleAt file).IsCanonical ↔ ¬ r.IsDoubled (bare specifier)) ∧
        (d.IsReadAs file (moduleAt file) ↔ ¬ r.IsDoubled (bare specifier)) := by
  obtain ⟨base, hbases, hbase⟩ := exists_isBase (directoryOf importer) hs
  obtain ⟨habsolute, hwritten, hdoubled⟩ := spec_of_isBase hr (anchor_directoryOf himporter)
    (isWritten_directoryOf importer) hbase
  refine ⟨base, fun p => ⟨fun hp => hp.unique hr hbase, fun hp => hp ▸ hbase⟩, ?_, ?_⟩
  · intro m
    rw [(settles_resolve specifier importer memory hmemory).1]
    exact find_eq_some_iff hbases (package_eq_none_of_based hr hs)
  · intro file hfirst
    obtain ⟨before, after, hsplit, -, hfile⟩ := hfirst
    obtain ⟨hsame, hfileWritten⟩ :=
      spec_of_mem_candidates hwritten (hsplit ▸ List.mem_append_right before List.mem_cons_self)
    have hfileAbsolute : file.isAbsolute = true := by
      rw [Path.isAbsolute, hsame]
      exact habsolute
    rw [← hdoubled, ← hsame]
    exact ⟨sameFile_moduleAt hd hfileAbsolute hfileWritten hfile,
      isCanonical_moduleAt_iff hfileAbsolute hfileWritten,
      isReadAs_moduleAt_iff hd hfileAbsolute hfileWritten hfile⟩

/-- Behind an alias for a directory two slashes start another path, and the module that is found is
not the one that is read in the file. Behind one slash it is. -/
theorem resolve_firstFile_iff_of_slashes :
    let root : Path := ⟨.root, ["app"]⟩
    let a : Alias := ⟨".", root.under "src"⟩
    let r : Rules := { root, aliases := [a], extensions := standardExtensions, packages := none }
    let d : Disk := ⟨Table.ofList [(["app"], .directory), (["app", "src"], .directory),
      (["app", "src", "a.js"], .file [])], ["app"]⟩
    ((r.resolve d ".///app/src/a.js" "/app/src/b.js").run .empty).1 = .ok (some "//app/src/a.js") ∧
      ¬ ModuleId.IsCanonical "//app/src/a.js" ∧
      ¬ d.IsReadAs ⟨.doubleRoot, ["app", "src", "a.js"]⟩ "//app/src/a.js" ∧
      ((r.resolve d "./a" "/app/src/b.js").run .empty).1 = .ok (some "/app/src/a.js") ∧
      ModuleId.IsCanonical "/app/src/a.js" ∧
      d.IsReadAs ⟨.root, ["app", "src", "a.js"]⟩ "/app/src/a.js" := by
  intro root a r d
  have hd : d.IsTree := by decide +kernel
  have hr : r.IsPlain :=
    { root_canonical := by decide
      keys_nodup := List.nodup_singleton _
      stem_eq := by decide
      target_below := fun b hb => ⟨"src", by decide, by rw [List.mem_singleton.1 hb]⟩ }
  have himporter : ModuleId.IsCanonical "/app/src/b.js" :=
    ⟨⟨.root, ["app", "src", "b.js"]⟩, by decide, by decide⟩
  have hlongest : ∀ inner, r.IsLongest (a.stem ++ "/" ++ inner) a := by
    intro inner
    refine ⟨List.mem_singleton_self _, ⟨_, .below inner⟩, fun b hb _ => ?_⟩
    rw [List.mem_singleton.1 hb]
  have hslashes : bare ".///app/src/a.js" = a.stem ++ "/" ++ "//app/src/a.js" := by decide
  have hslash : bare "./a" = a.stem ++ "/" ++ "a" := by decide
  obtain ⟨base, hbase, hfind, hfile⟩ := @resolve_firstFile_iff r d hd hr
    ".///app/src/a.js" _ himporter (.inl (by decide)) _ (Memory.coherent_forget Memory.empty)
  obtain ⟨base', hbase', hfind', hfile'⟩ := @resolve_firstFile_iff r d hd hr
    "./a" _ himporter (.inl (by decide)) _ (Memory.coherent_forget Memory.empty)
  rw [hslashes] at hbase hfind hfile
  rw [hslash] at hbase' hfind' hfile'
  obtain rfl := (hbase _).1 (.aliased (hlongest _) (.below _))
  obtain rfl := (hbase' _).1 (.aliased (hlongest _) (.below _))
  have hfirst := probe_eq_some_iff.1 (show r.probe d (a.target.joinText "//app/src/a.js") =
    .ok (some ⟨.doubleRoot, ["app", "src", "a.js"]⟩) by decide +kernel)
  have hfirst' := probe_eq_some_iff.1 (show r.probe d (a.target.joinText "a") =
    .ok (some ⟨.root, ["app", "src", "a.js"]⟩) by decide +kernel)
  obtain ⟨-, hcanonical, hread⟩ := hfile _ hfirst
  obtain ⟨-, hcanonical', hread'⟩ := hfile' _ hfirst'
  rw [(hlongest _).isDoubled_iff hr] at hcanonical hread hcanonical' hread'
  have hanchor : (Path.ofString "//app/src/a.js").anchor = .doubleRoot := by decide
  have hanchor' : (Path.ofString "a").anchor ≠ .doubleRoot := by decide
  exact ⟨(hfind _).2 ⟨by decide, _, hfirst, by decide⟩, fun h => hcanonical.1 h hanchor,
    fun h => hread.1 h hanchor, (hfind' _).2 ⟨by decide, _, hfirst', by decide⟩,
    hcanonical'.2 hanchor', hread'.2 hanchor'⟩

end Lookup

end RouteAssets
