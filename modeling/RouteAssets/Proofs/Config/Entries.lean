import RouteAssets.Config.Setting
import Mathlib.Data.List.Basic
import Mathlib.Tactic.Lemma

/-!
# Laws of settings by their names

Two names of a mapping may be written differently and be one name all the same, so a mapping is not a
table over its names but over what they are equal to. Having the same value is an equivalence
(`Scalar.same_refl`, `Scalar.same_symm`, `Scalar.same_trans`): numbers are compared as fractions,
everything else as it stands.

* **Look-ups** do not see which of its forms a name has (`lookup_congr`), and a setting that has been
  written is found (`lookup_write`). What is found there may be written again without a change
  (`write_of_lookup`).
* A mapping has **distinct names** if no two of its names are one. Then each of its entries is found
  (`lookup_of_mem`). Writing keeps names distinct (`AreDistinct.write`), and so they are whenever a
  mapping is made of pairs (`areDistinct_ofPairs`).
* A setting is **well-formed** if all the mappings that are nested in it have distinct names
  (`IsWellFormed`). A list holds no entries, so what is inside a list does not matter.
-/

namespace RouteAssets

/-! ## Names of one value -/

/-- Two numbers have the same value if they are one fraction, or one number that is not finite. -/
lemma Number.same_iff {m n : Number} :
    m.same n = true ↔ m.ratio? = n.ratio? ∧ (m.ratio? = none → m = n) := by
  rw [Number.same, Bool.and_eq_true, beq_iff_eq, Bool.or_eq_true, beq_iff_eq]
  cases m.ratio? <;> simp

namespace Scalar

/-- Two names that are numbers are one name if the numbers have one value. -/
lemma same_of_numbers {a b : Scalar} {m n : Number} (ha : a.number? = some m)
    (hb : b.number? = some n) : a.same b = m.same n := by
  simp only [same, ha, hb]

/-- A name that is no number equals itself only. -/
lemma same_iff_eq {a b : Scalar} (h : a.number? = none ∨ b.number? = none) :
    a.same b = true ↔ a = b := by
  rcases h with h | h
  · simp only [same, h, beq_iff_eq]
  · cases ha : a.number? <;> simp only [same, h, ha, beq_iff_eq]

/-- Two names are one name if they are equal, or numbers of one value. -/
lemma same_iff {a b : Scalar} :
    a.same b = true ↔
      a = b ∨ ∃ m n, a.number? = some m ∧ b.number? = some n ∧ m.same n = true := by
  cases ha : a.number? with
  | none => simp [same_iff_eq (Or.inl ha)]
  | some m =>
    cases hb : b.number? with
    | none => simp [same_iff_eq (Or.inr hb)]
    | some n =>
      rw [same_of_numbers ha hb]
      refine ⟨fun h => Or.inr ⟨m, n, rfl, rfl, h⟩, ?_⟩
      rintro (rfl | ⟨m', n', hm, hn, h⟩)
      · rw [Option.some.inj (ha.symm.trans hb)]
        exact Number.same_iff.2 ⟨rfl, fun _ => rfl⟩
      · rwa [Option.some.inj hm, Option.some.inj hn]

/-- A name is the same as itself. -/
@[simp] lemma same_refl (a : Scalar) : a.same a = true := same_iff.2 (Or.inl rfl)

/-- It does not matter which of two names is compared with the other. -/
lemma same_symm {a b : Scalar} (h : a.same b = true) : b.same a = true := by
  rcases same_iff.1 h with rfl | ⟨m, n, hm, hn, hmn⟩
  · exact same_refl a
  · obtain ⟨heq, hnone⟩ := Number.same_iff.1 hmn
    exact same_iff.2 (Or.inr ⟨n, m, hn, hm,
      Number.same_iff.2 ⟨heq.symm, fun h => (hnone (heq.trans h)).symm⟩⟩)

/-- Two names that are the same as a third one are one name. -/
lemma same_trans {a b c : Scalar} (hab : a.same b = true) (hbc : b.same c = true) :
    a.same c = true := by
  rcases same_iff.1 hab with rfl | ⟨m, n, hm, hn, hmn⟩
  · exact hbc
  · rcases same_iff.1 hbc with rfl | ⟨n', p, hn', hp, hnp⟩
    · exact hab
    · rw [Option.some.inj (hn'.symm.trans hn)] at hnp
      obtain ⟨heq, hnone⟩ := Number.same_iff.1 hmn
      obtain ⟨heq', hnone'⟩ := Number.same_iff.1 hnp
      exact same_iff.2 (Or.inr ⟨m, p, hm, hp, Number.same_iff.2
        ⟨heq.trans heq', fun h => (hnone h).trans (hnone' (heq.symm.trans h))⟩⟩)

/-- Comparing two names from either side comes to the same. -/
lemma same_comm (a b : Scalar) : a.same b = b.same a := Bool.eq_iff_iff.2 ⟨same_symm, same_symm⟩

/-- Two forms of one name are the same as the same names. -/
lemma same_congr {a b : Scalar} (h : a.same b = true) (c : Scalar) : a.same c = b.same c :=
  Bool.eq_iff_iff.2 ⟨fun hc => same_trans (same_symm h) hc, fun hc => same_trans h hc⟩

/-- The same names are the same as two forms of one name. -/
lemma same_congr_right {a b : Scalar} (h : a.same b = true) (c : Scalar) : c.same a = c.same b := by
  rw [same_comm c a, same_comm c b, same_congr h]

/-- A text equals itself only. -/
@[simp] lemma same_text_iff {a : Scalar} {t : String} : a.same (.text t) = true ↔ a = .text t :=
  same_iff_eq (Or.inr rfl)

end Scalar

namespace Setting

variable {n k : Scalar} {s : Setting} {es : Entries}

/-! ## Look-ups and writing -/

/-- A look-up does not see which form a name has. -/
lemma lookup_congr (h : n.same k = true) (es : Entries) : lookup n es = lookup k es := by
  induction es with
  | nil => rfl
  | cons e es ih => rw [lookup, lookup, ih, Scalar.same_congr_right h]

/-- Looking up after a setting has been written. -/
lemma lookup_write (n k : Scalar) (s : Setting) (es : Entries) :
    lookup k (write n s es) = if n.same k then some s else lookup k es := by
  induction es with
  | nil => rfl
  | cons e es ih =>
    obtain ⟨m, t⟩ := e
    cases hn : m.same n with
    | true =>
      rw [write, if_pos hn, lookup, lookup, Scalar.same_congr hn]
      split <;> rfl
    | false =>
      rw [write, if_neg (by simp [hn]), lookup, lookup, ih]
      cases hm : m.same k with
      | false => rfl
      | true =>
        -- the name that is looked up is not the one that has been written
        have hk : n.same k = false := by
          rw [← Scalar.same_congr_right hm, Scalar.same_comm, hn]
        simp [hk]

/-- What is found under a name may be written there again. -/
lemma write_of_lookup (h : lookup n es = some s) : write n s es = es := by
  induction es with
  | nil => simp [lookup] at h
  | cons e es ih =>
    obtain ⟨m, t⟩ := e
    rw [lookup] at h
    rw [write]
    split at h
    · rename_i hm
      rw [if_pos hm, Option.some.inj h]
    · rename_i hm
      rw [if_neg hm, ih h]

/-- What is found in a mapping stands there, under a form of the name. -/
lemma mem_of_lookup (h : lookup k es = some s) : ∃ n, (n, s) ∈ es ∧ n.same k = true := by
  induction es with
  | nil => simp [lookup] at h
  | cons e es ih =>
    obtain ⟨m, t⟩ := e
    rw [lookup] at h
    split at h
    · rename_i hm
      rw [Option.some.inj h]
      exact ⟨m, List.mem_cons_self, hm⟩
    · obtain ⟨n, hn, hsame⟩ := ih h
      exact ⟨n, List.mem_cons_of_mem _ hn, hsame⟩

/-- Nothing is found exactly under names that do not occur. -/
lemma lookup_eq_none_iff : lookup k es = none ↔ ∀ e ∈ es, e.1.same k = false := by
  induction es with
  | nil => simp [lookup]
  | cons e es ih =>
    obtain ⟨m, t⟩ := e
    rw [lookup, List.forall_mem_cons, ← ih]
    cases m.same k <;> simp

/-- After writing, a mapping holds what it held and what has been written. -/
lemma mem_write {e : Scalar × Setting} (h : e ∈ write n s es) : e ∈ es ∨ e.2 = s := by
  induction es with
  | nil =>
    rw [write, List.mem_singleton] at h
    exact Or.inr (congrArg Prod.snd h)
  | cons f es ih =>
    obtain ⟨m, t⟩ := f
    rw [write] at h
    split at h
    · rcases List.mem_cons.1 h with rfl | h
      · exact Or.inr rfl
      · exact Or.inl (List.mem_cons_of_mem _ h)
    · rcases List.mem_cons.1 h with rfl | h
      · exact Or.inl List.mem_cons_self
      · exact (ih h).imp_left (List.mem_cons_of_mem _)

/-! ## Distinct names -/

/-- No two names of a mapping are one. -/
def AreDistinct (es : Entries) : Prop := es.Pairwise fun e f => e.1.same f.1 = false

instance : Decidable (AreDistinct es) := inferInstanceAs (Decidable (es.Pairwise _))

/-- Where names are distinct, every entry is what its name is looked up as. -/
lemma lookup_of_mem (hes : AreDistinct es) (h : (n, s) ∈ es) : lookup n es = some s := by
  induction es with
  | nil => simp at h
  | cons e es ih =>
    obtain ⟨m, t⟩ := e
    obtain ⟨hm, hes⟩ := List.pairwise_cons.1 hes
    rcases List.mem_cons.1 h with heq | h
    · cases heq
      simp [lookup]
    · rw [lookup, hm _ h]
      exact ih hes h

/-- Names stay in place when a setting is written, and a new one comes last. -/
lemma map_fst_write (n : Scalar) (s : Setting) (es : Entries) :
    (write n s es).map Prod.fst =
      if (lookup n es).isSome then es.map Prod.fst else es.map Prod.fst ++ [n] := by
  induction es with
  | nil => rfl
  | cons e es ih =>
    obtain ⟨m, t⟩ := e
    rw [write, lookup]
    cases m.same n with
    | true => rfl
    | false =>
      simp only [Bool.false_eq_true, if_false, List.map_cons, ih]
      split <;> rfl

/-- Writing keeps names distinct. -/
lemma AreDistinct.write (hes : AreDistinct es) (n : Scalar) (s : Setting) :
    AreDistinct (write n s es) := by
  have hnames (fs : Entries) :
      AreDistinct fs ↔ (fs.map Prod.fst).Pairwise fun a b => a.same b = false := by
    rw [List.pairwise_map]
    rfl
  rw [hnames] at hes ⊢
  rw [map_fst_write]
  cases hlookup : lookup n es with
  | some t => exact hes
  | none =>
    refine List.pairwise_append.2 ⟨hes, List.pairwise_singleton _ _, fun a ha b hb => ?_⟩
    obtain ⟨e, he, rfl⟩ := List.mem_map.1 ha
    rw [List.mem_singleton.1 hb]
    exact lookup_eq_none_iff.1 hlookup e he

/-- What has been written into a mapping one by one. -/
lemma foldl_write_induction {p : Entries → Prop} (pairs : Entries) (h : p es)
    (hstep : ∀ es, p es → ∀ e ∈ pairs, p (write e.1 e.2 es)) :
    p (pairs.foldl (fun es e => write e.1 e.2 es) es) := by
  induction pairs generalizing es with
  | nil => exact h
  | cons e pairs ih =>
    exact ih (hstep es h e List.mem_cons_self) fun fs hfs f hf =>
      hstep fs hfs f (List.mem_cons_of_mem _ hf)

/-- A mapping that is made of pairs has distinct names. -/
lemma areDistinct_ofPairs (pairs : Entries) : AreDistinct (ofPairs pairs) :=
  foldl_write_induction pairs List.Pairwise.nil fun _ hes e _ => hes.write e.1 e.2

/-- The settings in a mapping that is made of pairs are those of the pairs. -/
lemma mem_ofPairs {pairs : Entries} {e : Scalar × Setting} (h : e ∈ ofPairs pairs) :
    ∃ f ∈ pairs, f.2 = e.2 := by
  refine foldl_write_induction (p := fun es => ∀ e ∈ es, ∃ f ∈ pairs, f.2 = e.2) pairs
    (by simp) (fun es hes f hf e he => ?_) e h
  rcases mem_write he with he | he
  · exact hes e he
  · exact ⟨f, hf, he.symm⟩

/-! ## Well-formed settings -/

/-- All mappings that are nested in a setting have distinct names. -/
inductive IsWellFormed : Setting → Prop
  | scalar (s : Scalar) : IsWellFormed (.scalar s)
  | list (items : List Setting) : IsWellFormed (.list items)
  | mapping {es : Entries} (names : AreDistinct es) (values : ∀ e ∈ es, IsWellFormed e.2) :
    IsWellFormed (.mapping es)

/-- A mapping is well-formed if its names are distinct and what stands in it is well-formed. -/
lemma isWellFormed_mapping_iff :
    IsWellFormed (.mapping es) ↔ AreDistinct es ∧ ∀ e ∈ es, IsWellFormed e.2 := by
  refine ⟨fun h => ?_, fun h => .mapping h.1 h.2⟩
  cases h with
  | mapping names values => exact ⟨names, values⟩

/-- The names of a well-formed mapping are distinct. -/
lemma IsWellFormed.areDistinct (h : IsWellFormed (.mapping es)) : AreDistinct es :=
  (isWellFormed_mapping_iff.1 h).1

/-- What stands in a well-formed mapping is well-formed. -/
lemma IsWellFormed.of_mem (h : IsWellFormed (.mapping es)) {e : Scalar × Setting} (he : e ∈ es) :
    IsWellFormed e.2 := (isWellFormed_mapping_iff.1 h).2 e he

/-- A mapping that is made of pairs is well-formed if the settings in the pairs are. -/
lemma isWellFormed_ofPairs {pairs : Entries} (h : ∀ e ∈ pairs, IsWellFormed e.2) :
    IsWellFormed (.mapping (ofPairs pairs)) :=
  .mapping (areDistinct_ofPairs pairs) fun e he => by
    obtain ⟨f, hf, heq⟩ := mem_ofPairs he
    exact heq ▸ h f hf

/-- The standard configuration is well-formed. -/
lemma isWellFormed_standard : IsWellFormed (.mapping Config.standard) := by
  simp only [Config.standard, named, null, text, truth, texts, isWellFormed_mapping_iff,
    List.map_cons, List.map_nil, List.forall_mem_cons, List.not_mem_nil, IsEmpty.forall_iff,
    implies_true, IsWellFormed.scalar, IsWellFormed.list, and_true]
  decide

end Setting

end RouteAssets
