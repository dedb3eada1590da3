import RouteAssets.Path
import Mathlib.Data.List.Basic
import Mathlib.Tactic.Lemma

/-!
# Texts of paths

A path that is denoted by a text is denoted by its own text (`ofString_toString`), so that paths
with one text are one path (`toString_inj`). The names of such a path are what stands between
slashes (`IsWritten`).

A path is **canonical** (`IsCanonical`) when it starts at the root and has no parent names.
Resolving makes paths canonical (`isCanonical_resolve`), and leaves those as they are that were so
before (`resolve_eq_self_iff`).
-/

namespace RouteAssets

open RouteAssets.Text

/-! ## Pieces -/

namespace Text

/-- A text without the character is one piece. -/
lemma splitOnChar_of_not_mem {d : Char} {cs : List Char} (h : d ∉ cs) : splitOnChar d cs = [cs] := by
  induction cs with
  | nil => rfl
  | cons c cs ih =>
    rw [List.mem_cons, not_or] at h
    have hc : (c == d) = false := beq_false_of_ne (Ne.symm h.1)
    simp only [splitOnChar, hc, Bool.false_eq_true, if_false, ih h.2]

/-- The first piece ends at the first occurrence of the character. -/
lemma splitOnChar_append_cons {d : Char} {cs : List Char} (h : d ∉ cs) (ds : List Char) :
    splitOnChar d (cs ++ d :: ds) = cs :: splitOnChar d ds := by
  induction cs with
  | nil => simp [splitOnChar]
  | cons c cs ih =>
    rw [List.mem_cons, not_or] at h
    have hc : (c == d) = false := beq_false_of_ne (Ne.symm h.1)
    simp only [List.cons_append, splitOnChar, hc, Bool.false_eq_true, if_false, ih h.2]

/-- No piece holds the character. -/
lemma not_mem_of_mem_splitOnChar {d : Char} {cs p : List Char} (h : p ∈ splitOnChar d cs) :
    d ∉ p := by
  induction cs generalizing p with
  | nil =>
    rw [splitOnChar, List.mem_singleton] at h
    simp [h]
  | cons c cs ih =>
    rw [splitOnChar] at h
    split at h
    · rcases List.mem_cons.1 h with rfl | h
      · simp
      · exact ih h
    · rename_i hc
      have hne : d ≠ c := fun he => hc (by simp [he])
      split at h
      · rw [List.mem_singleton] at h
        simp [h, hne]
      · rename_i q qs hq
        rcases List.mem_cons.1 h with rfl | h
        · rw [List.mem_cons, not_or]
          exact ⟨hne, ih (hq ▸ List.mem_cons_self)⟩
        · exact ih (hq ▸ List.mem_cons_of_mem q h)

/-- The characters of joined texts. -/
lemma toList_joinWith_cons (separator s : String) (ss : List String) :
    (joinWith separator (s :: ss)).toList =
      s.toList ++ ss.flatMap fun t => separator.toList ++ t.toList := by
  induction ss generalizing s with
  | nil => simp [joinWith]
  | cons t ts ih =>
    rw [joinWith, String.toList_append, String.toList_append, ih, List.flatMap_cons,
      List.append_assoc, List.append_assoc]
    simp

/-- Texts without slashes are the pieces of what they are joined to. -/
lemma splitOnChar_joinWith {s : String} {ss : List String}
    (h : ∀ t ∈ s :: ss, '/' ∉ t.toList) :
    splitOnChar '/' (joinWith "/" (s :: ss)).toList = (s :: ss).map String.toList := by
  rw [toList_joinWith_cons]
  induction ss generalizing s with
  | nil => simpa using splitOnChar_of_not_mem (h s List.mem_cons_self)
  | cons t ts ih =>
    have hs := h s List.mem_cons_self
    have hrest := ih (s := t) fun u hu => h u (List.mem_cons_of_mem s hu)
    rw [List.flatMap_cons, List.map_cons, ← hrest]
    exact splitOnChar_append_cons hs _

end Text

namespace Path

/-! ## Paths that texts denote -/

/-- The names of a path are not empty, not a single dot, and hold no slash. -/
def IsWritten (p : Path) : Prop := ∀ n ∈ p.names, n ≠ "" ∧ n ≠ "." ∧ '/' ∉ n.toList

instance (p : Path) : Decidable p.IsWritten :=
  inferInstanceAs (Decidable (∀ n ∈ p.names, n ≠ "" ∧ n ≠ "." ∧ '/' ∉ n.toList))

/-- A path that a text denotes is written. -/
lemma isWritten_ofString (s : String) : (ofString s).IsWritten := by
  intro n hn
  obtain ⟨p, hp, rfl⟩ := List.mem_map.1 hn
  rw [List.mem_filter, Bool.and_eq_true, bne_iff_ne, bne_iff_ne] at hp
  refine ⟨fun he => hp.2.1 ?_, fun he => hp.2.2 ?_, ?_⟩
  · simpa using congrArg String.toList he
  · simpa using congrArg String.toList he
  · rw [String.toList_ofList]
    exact not_mem_of_mem_splitOnChar hp.1

/-- The path around a written path is written. -/
lemma IsWritten.parent {p : Path} (h : p.IsWritten) : p.parent.IsWritten :=
  fun n hn => h n (List.dropLast_subset _ hn)

/-- The names of a written path are read off their text. -/
lemma IsWritten.namesOf_joinWith {p : Path} (h : p.IsWritten) :
    namesOf (joinWith "/" p.names).toList = p.names := by
  unfold namesOf
  rcases hp : p.names with _ | ⟨n, ns⟩
  · rfl
  · have hn : ∀ m ∈ n :: ns, m ≠ "" ∧ m ≠ "." ∧ '/' ∉ m.toList := hp ▸ h
    rw [splitOnChar_joinWith fun m hm => (hn m hm).2.2, List.filter_eq_self.2]
    · simp
    · intro q hq
      obtain ⟨m, hm, rfl⟩ := List.mem_map.1 hq
      obtain ⟨hempty, hdot, -⟩ := hn m hm
      rw [Bool.and_eq_true, bne_iff_ne, bne_iff_ne]
      exact ⟨fun he => hempty (String.toList_inj.1 he), fun he => hdot (String.toList_inj.1 he)⟩

/-- A slash in front of a text changes no name. -/
lemma namesOf_slash (cs : List Char) : namesOf ('/' :: cs) = namesOf cs := by
  simp [namesOf, splitOnChar]

/-- The text of the names of a written path does not start with a slash. -/
lemma IsWritten.head?_joinWith {p : Path} (h : p.IsWritten) :
    (joinWith "/" p.names).toList.head? ≠ some '/' := by
  rcases hp : p.names with _ | ⟨n, ns⟩
  · simp [joinWith]
  · obtain ⟨hempty, -, hslash⟩ := h n (hp ▸ List.mem_cons_self)
    rw [toList_joinWith_cons]
    rcases hn : n.toList with _ | ⟨c, cs⟩
    · exact absurd (String.toList_inj.1 (hn.trans String.toList_empty.symm)) hempty
    · rintro he
      rw [List.cons_append, List.head?_cons, Option.some.injEq] at he
      exact hslash (hn ▸ he ▸ List.mem_cons_self)

/-- The slashes in front of a text that does not start with one are its anchor. -/
lemma anchorOf_text_append (a : Anchor) {cs : List Char} (h : cs.head? ≠ some '/') :
    anchorOf ((Anchor.text a).toList ++ cs) = a := by
  cases a <;> rcases cs with _ | ⟨c, cs⟩ <;> simp_all [anchorOf, Anchor.text]

/-- The slashes of an anchor change no name. -/
lemma namesOf_text_append (a : Anchor) (cs : List Char) :
    namesOf ((Anchor.text a).toList ++ cs) = namesOf cs := by
  cases a with
  | relative => rfl
  | root => exact namesOf_slash cs
  | doubleRoot => exact (namesOf_slash ('/' :: cs)).trans (namesOf_slash cs)

/-- A written path is denoted by its own text. -/
lemma ofString_toString {p : Path} (h : p.IsWritten) : ofString p.toString = p := by
  unfold toString
  split
  · rename_i hdot
    obtain ⟨anchor, names⟩ := p
    rw [Bool.and_eq_true, beq_iff_eq, List.isEmpty_iff] at hdot
    obtain ⟨rfl, rfl⟩ := hdot
    decide
  · rw [ofString, String.toList_append, anchorOf_text_append _ h.head?_joinWith,
      namesOf_text_append, h.namesOf_joinWith]

/-- Written paths with one text are one path. -/
lemma toString_inj {p q : Path} (hp : p.IsWritten) (hq : q.IsWritten)
    (h : p.toString = q.toString) : p = q := by
  rw [← ofString_toString hp, ← ofString_toString hq, h]

/-! ## Canonical paths -/

/-- A path from the root, without parent names. -/
structure IsCanonical (p : Path) : Prop where
  anchor_eq : p.anchor = .root
  isWritten : p.IsWritten
  not_mem_names : ".." ∉ p.names

instance (p : Path) : Decidable p.IsCanonical :=
  decidable_of_iff (p.anchor = .root ∧ p.IsWritten ∧ ".." ∉ p.names)
    ⟨fun ⟨h, h', h''⟩ => ⟨h, h', h''⟩, fun ⟨h, h', h''⟩ => ⟨h, h', h''⟩⟩

/-- A path below a written path is written. -/
lemma IsWritten.join {p q : Path} (hp : p.IsWritten) (hq : q.IsWritten) : (p.join q).IsWritten := by
  unfold Path.join
  split
  · exact hq
  · intro n hn
    rcases List.mem_append.1 hn with hn | hn
    · exact hp n hn
    · exact hq n hn

/-- A path below an absolute path is absolute. -/
lemma isAbsolute_join {p q : Path} (hp : p.isAbsolute = true) : (p.join q).isAbsolute = true := by
  unfold Path.join
  split
  · assumption
  · exact hp

/-- A path from the root is absolute. -/
lemma isAbsolute_of_anchor_eq {p : Path} (h : p.anchor = .root) : p.isAbsolute = true := by
  rw [isAbsolute, h]
  rfl

/-- A relative path starts where the path starts that it is below. -/
lemma anchor_join (p : Path) {q : Path} (hq : q.isAbsolute = false) :
    (p.join q).anchor = p.anchor := by
  rw [join, hq]
  rfl

/-- Below a path an absolute path stands for itself. -/
lemma join_of_isAbsolute (p : Path) {q : Path} (hq : q.isAbsolute = true) : p.join q = q :=
  if_pos hq

/-- Folding brings no new names. -/
lemma mem_of_mem_foldl_foldName {absolute : Bool} {n : String} {ns acc : List String}
    (h : n ∈ ns.foldl (foldName absolute) acc) : n ∈ acc ∨ n ∈ ns := by
  induction ns generalizing acc with
  | nil => exact Or.inl h
  | cons m ns ih =>
    have hstep : ∀ n, n ∈ foldName absolute acc m → n ∈ acc ∨ n = m := by
      intro n hn
      unfold foldName at hn
      split at hn
      · split at hn
        · split at hn <;> simp_all
        · split at hn
          · rcases List.mem_cons.1 hn with rfl | hn
            · exact Or.inr rfl
            · exact Or.inl hn
          · exact Or.inl (List.mem_cons_of_mem _ hn)
      · rcases List.mem_cons.1 hn with rfl | hn
        · exact Or.inr rfl
        · exact Or.inl hn
    rcases ih h with hn | hn
    · rcases hstep n hn with hn | rfl
      · exact Or.inl hn
      · exact Or.inr List.mem_cons_self
    · exact Or.inr (List.mem_cons_of_mem m hn)

/-- A normalised path is written if the path is. -/
lemma IsWritten.normalize {p : Path} (h : p.IsWritten) : p.normalize.IsWritten := by
  intro n hn
  rcases mem_of_mem_foldl_foldName (List.mem_reverse.1 hn) with hn | hn
  · exact absurd hn List.not_mem_nil
  · exact h n hn

/-- In an absolute path folding leaves no parent names. -/
lemma not_mem_foldl_foldName {ns acc : List String} (h : ".." ∉ acc) :
    ".." ∉ ns.foldl (foldName true) acc := by
  induction ns generalizing acc with
  | nil => exact h
  | cons m ns ih =>
    apply ih
    unfold foldName
    split
    · split
      · exact List.not_mem_nil
      · rw [List.mem_cons, not_or] at h
        split
        · rename_i hm
          exact absurd (eq_of_beq hm).symm h.1
        · exact h.2
    · rename_i hm
      rw [List.mem_cons, not_or]
      exact ⟨fun he => hm (beq_of_eq he.symm), h⟩

/-- A normalised absolute path has no parent names. -/
lemma not_mem_normalize {p : Path} (h : p.isAbsolute = true) : ".." ∉ p.normalize.names := by
  unfold Path.normalize
  rw [h, List.mem_reverse]
  exact not_mem_foldl_foldName List.not_mem_nil

/-- Names without a parent name are folded as they are. -/
lemma foldl_foldName_of_not_mem {absolute : Bool} {ns : List String} (h : ".." ∉ ns)
    (acc : List String) : ns.foldl (foldName absolute) acc = ns.reverse ++ acc := by
  induction ns generalizing acc with
  | nil => rfl
  | cons n ns ih =>
    rw [List.mem_cons, not_or] at h
    have hn : (n == "..") = false := beq_false_of_ne (Ne.symm h.1)
    have hstep : foldName absolute acc n = n :: acc := by
      unfold foldName
      rw [hn]
      rfl
    rw [List.foldl_cons, hstep, ih h.2]
    simp

/-- A path without parent names is normal. -/
lemma normalize_of_not_mem {p : Path} (h : ".." ∉ p.names) : p.normalize = p := by
  unfold Path.normalize
  rw [foldl_foldName_of_not_mem h]
  simp

/-- An absolute path is normal exactly when it has no parent names. -/
lemma normalize_eq_self_iff {p : Path} (h : p.isAbsolute = true) :
    p.normalize = p ↔ ".." ∉ p.names :=
  ⟨fun he => he ▸ not_mem_normalize h, normalize_of_not_mem⟩

/-- Resolving an absolute path. -/
lemma resolve_of_isAbsolute (cwd : Path) {p : Path} (hp : p.isAbsolute = true) :
    Path.resolve cwd p = { p.normalize with anchor := .root } := by
  rw [Path.resolve, join_of_isAbsolute cwd hp]

/-- What a path is resolved to is canonical. -/
lemma isCanonical_resolve {cwd p : Path} (hcwd : cwd.IsWritten) (habsolute : cwd.isAbsolute = true)
    (hp : p.IsWritten) : (Path.resolve cwd p).IsCanonical where
  anchor_eq := rfl
  isWritten := (hcwd.join hp).normalize
  not_mem_names := not_mem_normalize (isAbsolute_join habsolute)

/-- Resolving leaves an absolute path as it is exactly when it starts at the root and has no parent
names. -/
lemma resolve_eq_self_iff (cwd : Path) {p : Path} (hp : p.isAbsolute = true) :
    Path.resolve cwd p = p ↔ p.anchor = .root ∧ ".." ∉ p.names := by
  rw [resolve_of_isAbsolute cwd hp]
  constructor
  · intro h
    refine ⟨h ▸ rfl, ?_⟩
    have hnames := congrArg Path.names h
    exact hnames ▸ not_mem_normalize hp
  · rintro ⟨hanchor, hnames⟩
    rw [normalize_of_not_mem hnames]
    cases p
    cases hanchor
    rfl

end Path

end RouteAssets
