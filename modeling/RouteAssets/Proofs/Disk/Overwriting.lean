import RouteAssets.Proofs.Disk.Writing

/-!
# Files written over

Writing over a file leaves the shape of a disk as it is (`SameShape`): what is where, up to the
contents of files. All paths lead where they led, and all listings list what they listed.

* **Shape** (`SameShape.locate_eq`, `SameShape.descendants_eq`, `SameShape.isTree`): what depends on
  it alone.
* **Writing over** (`run_writeBytes_over`, `readBytes_put`): a file that a path leads to can be
  written and holds what was written.
* **Listings of a tree** (`IsTree.locate_injOn_descendants`): the paths that a directory lists lead
  to different places.
-/

namespace RouteAssets.Disk

open RouteAssets.Text

/-- Disks with the same directories and files at the same places, whatever is in the files. -/
structure SameShape (d d' : Disk) : Prop where
  workingDirectory_eq : d'.workingDirectory = d.workingDirectory
  keys_eq : d'.nodes.keys = d.nodes.keys
  directory_iff : ∀ q, d'.node? q = some .directory ↔ d.node? q = some .directory

section Shapes

variable {d d' d'' : Disk} {p : Path} {place q : List String}

/-- A disk has its own shape. -/
lemma SameShape.refl (d : Disk) : d.SameShape d := ⟨rfl, rfl, fun _ => Iff.rfl⟩

/-- Shapes are the same along several changes. -/
lemma SameShape.trans (h : d.SameShape d') (h' : d'.SameShape d'') : d.SameShape d'' where
  workingDirectory_eq := h'.workingDirectory_eq.trans h.workingDirectory_eq
  keys_eq := h'.keys_eq.trans h.keys_eq
  directory_iff q := (h'.directory_iff q).trans (h.directory_iff q)

/-- What is at a place, the root apart, is one of the nodes. -/
lemma isSome_node?_iff (hq : q ≠ []) : (d.node? q).isSome = true ↔ q ∈ d.nodes.keys := by
  constructor
  · intro h
    obtain ⟨node, hnode⟩ := Option.isSome_iff_exists.1 h
    exact mem_keys_of_node? hnode hq
  · intro h
    obtain ⟨node, hnode⟩ := exists_node?_of_mem_keys h
    simp [hnode]

/-- Something is at a place of the one disk just if something is there on the other. -/
lemma SameShape.isSome_eq (h : d.SameShape d') (q : List String) :
    (d'.node? q).isSome = (d.node? q).isSome := by
  by_cases hq : q = []
  · simp [hq, node?]
  · rw [Bool.eq_iff_iff, isSome_node?_iff hq, isSome_node?_iff hq, h.keys_eq]

/-- At every place there is nothing on both disks, a directory on both, or a file on both. -/
lemma SameShape.node?_cases (h : d.SameShape d') (q : List String) :
    (d.node? q = none ∧ d'.node? q = none) ∨
      (d.node? q = some .directory ∧ d'.node? q = some .directory) ∨
      ∃ bytes bytes', d.node? q = some (.file bytes) ∧ d'.node? q = some (.file bytes') := by
  have hsome := h.isSome_eq q
  have hdirectory := h.directory_iff q
  rcases hnode : d.node? q with _ | _ | bytes
  · exact Or.inl ⟨rfl, by simpa [hnode] using hsome⟩
  · exact Or.inr (Or.inl ⟨rfl, hdirectory.2 hnode⟩)
  · rcases hnode' : d'.node? q with _ | _ | bytes'
    · simp [hnode, hnode'] at hsome
    · simp [hnode, hnode'] at hdirectory
    · exact Or.inr (Or.inr ⟨bytes, bytes', rfl, rfl⟩)

/-- Names lead to the same. -/
lemma SameShape.follow_eq (h : d.SameShape d') (start ns : List String) :
    d'.follow start ns = d.follow start ns := by
  induction ns generalizing start with
  | nil => rfl
  | cons n ns ih =>
    rw [follow, follow]
    rcases h.node?_cases start with ⟨hnode, hnode'⟩ | ⟨hnode, hnode'⟩ | ⟨_, _, hnode, hnode'⟩
    · rw [hnode, hnode']
    · rw [hnode, hnode']
      simp only [ih, h.isSome_eq]
    · rw [hnode, hnode']

/-- Paths lead to the same place. -/
lemma SameShape.locate_eq (h : d.SameShape d') (p : Path) : d'.locate p = d.locate p := by
  simp only [locate, startOf_congr h.workingDirectory_eq, h.follow_eq]

/-- The same paths name directories. -/
lemma SameShape.isDirectory_eq (h : d.SameShape d') (p : Path) :
    d'.isDirectory p = d.isDirectory p := by
  unfold isDirectory kind? stat
  rw [h.locate_eq]
  cases d.locate p with
  | error e => cases e <;> rfl
  | ok place =>
    rcases h.node?_cases place with ⟨hnode, hnode'⟩ | ⟨hnode, hnode'⟩ | ⟨_, _, hnode, hnode'⟩
    · simp [hnode, hnode', bind, Except.bind]
    · simp [hnode, hnode', bind, Except.bind]
    · simp [hnode, hnode', bind, Except.bind, pure, Except.pure, Except.map]

/-- The same is listed. -/
lemma SameShape.descendants_eq (h : d.SameShape d') (p : Path) :
    d'.descendants p = d.descendants p := by
  simp only [descendants, h.locate_eq, inside, h.keys_eq]

/-- A tree stays a tree. -/
lemma SameShape.isTree (h : d.SameShape d') (hd : d.IsTree) : d'.IsTree where
  named place hplace := hd.named place (h.keys_eq ▸ hplace)
  rooted place hplace := (h.directory_iff _).2 (hd.rooted place (h.keys_eq ▸ hplace))
  working := h.workingDirectory_eq ▸ hd.working

/-- A path reads the same where its place holds the same. -/
lemma SameShape.readBytes_congr (h : d.SameShape d')
    (hsame : ∀ place, d.locate p = .ok place → d'.node? place = d.node? place) :
    d'.readBytes p = d.readBytes p := by
  simp only [readBytes, stat, h.locate_eq]
  cases hplace : d.locate p with
  | error e => rfl
  | ok place => simp only [bind, Except.bind, hsame place hplace]

end Shapes

/-! ## Writing over a file -/

section Over

variable {d : Disk} {p : Path} {place : List String} {old bytes : List UInt8}

/-- Writing over a file leaves the shape of the disk as it is. -/
lemma sameShape_put (h : d.node? place = some (.file old)) (bytes : List UInt8) :
    d.SameShape (d.put place (.file bytes)) where
  workingDirectory_eq := rfl
  keys_eq := by
    have hroot : place ≠ [] := by
      rintro rfl
      cases h
    have hkey := mem_keys_of_node? h hroot
    change (d.nodes.insert place _).keys = _
    rw [Table.keys_insert, addNew, if_pos hkey]
  directory_iff q := by
    rw [node?_put]
    split
    · rename_i hq
      obtain ⟨rfl, -⟩ := hq
      simp [h]
    · exact Iff.rfl

/-- The file holds what was written. -/
lemma readBytes_put (hplace : d.locate p = .ok place) (h : d.node? place = some (.file old)) :
    (d.put place (.file bytes)).readBytes p = .ok bytes := by
  have hroot : place ≠ [] := by
    rintro rfl
    cases h
  refine readBytes_eq_ok_iff.2 ⟨place, ?_, ?_⟩
  · rw [(sameShape_put h bytes).locate_eq, hplace]
  · rw [bytesAt?_eq_some_iff, node?_put, if_pos ⟨rfl, hroot⟩]

/-- A path that leads somewhere leads there when it is written to. -/
lemma locateNew_of_locate (h : d.locate p = .ok place) : d.locateNew p = .ok place := by
  unfold locateNew
  split
  · exact h
  · exact h
  · rename_i n hparent hlast
    obtain ⟨hcheck, hfollow⟩ := locate_eq_ok_iff.1 h
    have hn : n ≠ ".." := hparent
    rw [← List.dropLast_append_getLast? n hlast] at hfollow
    obtain ⟨q, hq, hstep⟩ := exists_follow_of_append hfollow
    obtain ⟨hdirectory, ⟨hup, -⟩ | ⟨-, hshort, -, hplace⟩⟩ := follow_cons_eq_ok_iff.1 hstep
    · exact absurd hup hn
    · obtain rfl : q ++ [n] = place := by simpa [follow] using hplace
      simp [hcheck, hq, hdirectory, Nat.not_lt.2 hshort, bind, Except.bind, pure, Except.pure]

/-- A file that a path leads to can be written. -/
lemma run_writeBytes_over (hplace : d.locate p = .ok place)
    (h : d.node? place = some (.file old)) (bytes : List UInt8) :
    (writeBytes p bytes).run d = (.ok (), d.put place (.file bytes)) := by
  rw [run_writeBytes, locateNew_of_locate hplace]
  simp [h]

end Over

/-! ## Listings of a tree -/

section Listings

variable {d : Disk} {p q r : Path} {place : List String}

/-- On a tree a path below a directory leads below the place of the directory. -/
lemma IsTree.locate_below (hd : d.IsTree) {base : Path} {inner q : List String}
    (hbase : d.locate base = .ok place) (hinner : ".." ∉ inner)
    (h : d.locate { base with names := base.names ++ inner } = .ok q) : q = place ++ inner := by
  have hstart := hd.not_mem_startOf base
  have hplace := eq_of_follow hstart (locate_eq_ok_iff.1 hbase).2
  rw [eq_of_follow hstart (locate_eq_ok_iff.1 h).2, List.foldl_append, hplace]
  simp [Path.foldl_foldName_of_not_mem hinner]

/-- On a tree the paths that a directory lists lead to different places. -/
lemma IsTree.locate_injOn_descendants (hd : d.IsTree) (hq : q ∈ d.descendants p)
    (hr : r ∈ d.descendants p) (hqplace : d.locate q = .ok place)
    (hrplace : d.locate r = .ok place) : q = r := by
  obtain ⟨base, inner, hbase, -, hkey, rfl⟩ := mem_descendants_iff.1 hq
  obtain ⟨base', inner', hbase', -, hkey', rfl⟩ := mem_descendants_iff.1 hr
  obtain rfl : base = base' := Except.ok.inj (hbase.symm.trans hbase')
  have hnamed : ∀ inner, base ++ inner ∈ d.nodes.keys → ".." ∉ inner :=
    fun inner hkey hmem => hd.named _ hkey (List.mem_append_right base hmem)
  have hinner : base ++ inner = base ++ inner' :=
    (hd.locate_below hbase (hnamed inner hkey) hqplace).symm.trans
      (hd.locate_below hbase (hnamed inner' hkey') hrplace)
  rw [List.append_cancel_left hinner]

/-- On a tree nothing is listed where there is no directory. -/
lemma IsTree.descendants_eq_nil (hd : d.IsTree) (hp : d.isDirectory p = .ok false) :
    d.descendants p = [] := by
  rw [List.eq_nil_iff_forall_not_mem]
  intro q hq
  obtain ⟨place, inner, hplace, hne, hkey, -⟩ := mem_descendants_iff.1 hq
  obtain ⟨node, hnode⟩ := exists_node?_of_mem_keys hkey
  have htrue := isDirectory_eq_ok_true_iff.2 ⟨place, hplace, hd.isDirectory_of_prefix hnode hne⟩
  simp [htrue] at hp

end Listings

end RouteAssets.Disk
