import RouteAssets.Table

/-!
# The order of texts

Texts are ordered by the code points of their characters, from left to right; a text comes before
its continuations. Lists of texts, such as the names of a path, are ordered in the same way by their
items. The main statement is that sorting a list into a set gives exactly its elements, in strictly
ascending order (`mem_sortedSet`, `sortedSet_ascending`), whatever list of them it is given
(`sortedSet_congr`). Sorting by keys ascends in the same way (`IsOrder.sortBy_ascending`).
-/

namespace RouteAssets.Text

/-- The order of lists of characters. -/
def charsBefore : List Char → List Char → Bool
  | [], [] => false
  | [], _ :: _ => true
  | _ :: _, [] => false
  | c :: cs, d :: ds => c.toNat < d.toNat || (c == d && charsBefore cs ds)

/-- Does one text come before another? -/
def before (s t : String) : Bool := charsBefore s.toList t.toList

/-- The order of lists of texts. -/
def namesBefore : List String → List String → Bool
  | [], [] => false
  | [], _ :: _ => true
  | _ :: _, [] => false
  | s :: ss, t :: ts => before s t || (s == t && namesBefore ss ts)

/-- Puts an element in front of the first one that it comes before. -/
def insertSorted {α : Type} (lt : α → α → Bool) (x : α) : List α → List α
  | [] => [x]
  | y :: ys => if lt x y then x :: y :: ys else y :: insertSorted lt x ys

/-- The elements of a list in order; equal elements keep theirs. -/
def sortBy {α : Type} (lt : α → α → Bool) (xs : List α) : List α :=
  xs.foldl (fun sorted x => insertSorted lt x sorted) []

/-- Texts in order. -/
def sortedStrings (ss : List String) : List String := sortBy before ss

/-- The set of some texts, in order. -/
def sortedSet (ss : List String) : List String := sortedStrings (distinct ss)

/-! ## Laws -/

theorem charsBefore_irrefl (cs : List Char) : charsBefore cs cs = false := by
  induction cs with
  | nil => rfl
  | cons c cs ih => simp [charsBefore, ih]

theorem charsBefore_trans {a b c : List Char} (h : charsBefore a b = true)
    (h' : charsBefore b c = true) : charsBefore a c = true := by
  induction a generalizing b c with
  | nil =>
    cases b with
    | nil => simp [charsBefore] at h
    | cons d ds =>
      cases c with
      | nil => simp [charsBefore] at h'
      | cons => rfl
  | cons x xs ih =>
    cases b with
    | nil => simp [charsBefore] at h
    | cons y ys =>
      cases c with
      | nil => simp [charsBefore] at h'
      | cons z zs =>
        simp only [charsBefore, Bool.or_eq_true, Bool.and_eq_true, decide_eq_true_eq,
          beq_iff_eq] at h h' ⊢
        rcases h with h | ⟨rfl, h⟩ <;> rcases h' with h' | ⟨rfl, h'⟩
        · exact Or.inl (by omega)
        · exact Or.inl h
        · exact Or.inl h'
        · exact Or.inr ⟨rfl, ih h h'⟩

theorem charsBefore_total {a b : List Char} (h : charsBefore a b = false) (hne : a ≠ b) :
    charsBefore b a = true := by
  induction a generalizing b with
  | nil => cases b <;> simp_all [charsBefore]
  | cons x xs ih =>
    cases b with
    | nil => rfl
    | cons y ys =>
      simp only [charsBefore, Bool.or_eq_false_iff, decide_eq_false_iff_not, Bool.and_eq_false_iff,
        beq_eq_false_iff_ne, Bool.or_eq_true, decide_eq_true_eq, Bool.and_eq_true, beq_iff_eq] at h ⊢
      by_cases hxy : x = y
      · subst hxy
        exact Or.inr ⟨rfl, ih (h.2.resolve_left (by simp)) (fun e => hne (e ▸ rfl))⟩
      · have : x.toNat ≠ y.toNat := fun e => hxy (Char.toNat_inj.1 e)
        exact Or.inl (by omega)

theorem before_irrefl (s : String) : before s s = false := charsBefore_irrefl _

theorem before_trans {r s t : String} (h : before r s = true) (h' : before s t = true) :
    before r t = true := charsBefore_trans h h'

theorem before_total {s t : String} (h : before s t = false) (hne : s ≠ t) : before t s = true :=
  charsBefore_total h fun e => hne (String.toList_inj.1 e)

theorem mem_insertSorted {α : Type} {lt : α → α → Bool} {x y : α} {ys : List α} :
    y ∈ insertSorted lt x ys ↔ y = x ∨ y ∈ ys := by
  induction ys with
  | nil => simp [insertSorted]
  | cons z zs ih =>
    simp only [insertSorted]
    split
    · simp
    · simp only [List.mem_cons, ih]
      exact or_left_comm

theorem mem_sortBy {α : Type} {lt : α → α → Bool} {y : α} {xs : List α} :
    y ∈ sortBy lt xs ↔ y ∈ xs := by
  have h : ∀ (xs acc : List α), y ∈ xs.foldl (fun sorted x => insertSorted lt x sorted) acc ↔
      y ∈ acc ∨ y ∈ xs := by
    intro xs
    induction xs with
    | nil => simp
    | cons x xs ih =>
      intro acc
      simp only [List.foldl_cons, ih, mem_insertSorted, List.mem_cons]
      rw [or_comm (a := y = x), or_assoc]
  simp [sortBy, h]

theorem mem_sortedSet {s : String} {ss : List String} : s ∈ sortedSet ss ↔ s ∈ ss := by
  simp [sortedSet, sortedStrings, mem_sortBy, mem_distinct]

theorem namesBefore_trans {a b c : List String} (h : namesBefore a b = true)
    (h' : namesBefore b c = true) : namesBefore a c = true := by
  induction a generalizing b c with
  | nil =>
    cases b with
    | nil => simp [namesBefore] at h
    | cons t ts =>
      cases c with
      | nil => simp [namesBefore] at h'
      | cons => rfl
  | cons s ss ih =>
    cases b with
    | nil => simp [namesBefore] at h
    | cons t ts =>
      cases c with
      | nil => simp [namesBefore] at h'
      | cons u us =>
        simp only [namesBefore, Bool.or_eq_true, Bool.and_eq_true, beq_iff_eq] at h h' ⊢
        rcases h with h | ⟨rfl, h⟩ <;> rcases h' with h' | ⟨rfl, h'⟩
        · exact Or.inl (before_trans h h')
        · exact Or.inl h
        · exact Or.inl h'
        · exact Or.inr ⟨rfl, ih h h'⟩

theorem namesBefore_total {a b : List String} (h : namesBefore a b = false) (hne : a ≠ b) :
    namesBefore b a = true := by
  induction a generalizing b with
  | nil => cases b <;> simp_all [namesBefore]
  | cons s ss ih =>
    cases b with
    | nil => rfl
    | cons t ts =>
      simp only [namesBefore, Bool.or_eq_false_iff, Bool.and_eq_false_iff, beq_eq_false_iff_ne,
        Bool.or_eq_true, Bool.and_eq_true, beq_iff_eq] at h ⊢
      by_cases hst : s = t
      · subst hst
        exact Or.inr ⟨rfl, ih (h.2.resolve_left (by simp)) (fun e => hne (e ▸ rfl))⟩
      · exact Or.inl (before_total h.1 hst)

theorem namesBefore_irrefl (ns : List String) : namesBefore ns ns = false := by
  induction ns with
  | nil => rfl
  | cons n ns ih => simp [namesBefore, before_irrefl, ih]

/-- Of two lists with the same beginning the rest decides. -/
theorem namesBefore_append_left (ns ms ks : List String) :
    namesBefore (ns ++ ms) (ns ++ ks) = namesBefore ms ks := by
  induction ns with
  | nil => rfl
  | cons n ns ih => simp [namesBefore, before_irrefl, ih]

/-- A transitive order in which of two different elements one comes first. -/
structure IsOrder {α : Type} (lt : α → α → Bool) : Prop where
  trans : ∀ {a b c}, lt a b = true → lt b c = true → lt a c = true
  total : ∀ {a b}, lt a b = false → a ≠ b → lt b a = true

theorem isOrder_before : IsOrder before := ⟨before_trans, before_total⟩

theorem isOrder_namesBefore : IsOrder namesBefore :=
  ⟨namesBefore_trans, namesBefore_total⟩

section Sorting

variable {α : Type} {lt : α → α → Bool} {xs ys : List α}

/-- Inserting a new element keeps a strictly ascending list ascending. -/
theorem IsOrder.insertSorted_ascending (hlt : IsOrder lt) {x : α}
    (h : ys.Pairwise fun a b => lt a b = true) (hx : x ∉ ys) :
    (insertSorted lt x ys).Pairwise fun a b => lt a b = true := by
  induction ys with
  | nil => simp [insertSorted]
  | cons y ys ih =>
    rw [List.pairwise_cons] at h
    simp only [insertSorted]
    split
    · rename_i hxy
      refine List.pairwise_cons.2 ⟨?_, List.pairwise_cons.2 h⟩
      intro z hz
      rcases List.mem_cons.1 hz with rfl | hz
      · exact hxy
      · exact hlt.trans hxy (h.1 z hz)
    · rename_i hxy
      have hne : x ≠ y := fun e => hx (e ▸ List.mem_cons_self)
      have hyx : lt y x = true := hlt.total (by simpa using hxy) hne
      refine List.pairwise_cons.2 ⟨?_, ih h.2 fun e => hx (List.mem_cons_of_mem _ e)⟩
      intro z hz
      rcases mem_insertSorted.1 hz with rfl | hz
      · exact hyx
      · exact h.1 z hz

/-- Different elements are strictly ascending when they are sorted. -/
theorem IsOrder.sortBy_ascending (hlt : IsOrder lt) (hn : xs.Nodup) :
    (sortBy lt xs).Pairwise fun a b => lt a b = true := by
  have h : ∀ (xs acc : List α), xs.Nodup → (∀ x ∈ xs, x ∉ acc) →
      (acc.Pairwise fun a b => lt a b = true) →
      (xs.foldl (fun sorted x => insertSorted lt x sorted) acc).Pairwise
        fun a b => lt a b = true := by
    intro xs
    induction xs with
    | nil => intro acc _ _ h; exact h
    | cons x xs ih =>
      intro acc hn hd h
      rw [List.nodup_cons] at hn
      rw [List.foldl_cons]
      refine ih _ hn.2 ?_ (hlt.insertSorted_ascending h (hd x List.mem_cons_self))
      intro y hy hmem
      rcases mem_insertSorted.1 hmem with rfl | hmem
      · exact hn.1 hy
      · exact hd y (List.mem_cons_of_mem _ hy) hmem
  exact h _ _ hn (by simp) List.Pairwise.nil

/-- Strictly ascending lists with the same elements are equal. -/
theorem eq_of_ascending (hirrefl : ∀ a, lt a a = false)
    (htrans : ∀ {a b c}, lt a b = true → lt b c = true → lt a c = true)
    (hxs : xs.Pairwise fun a b => lt a b = true) (hys : ys.Pairwise fun a b => lt a b = true)
    (h : ∀ a, a ∈ xs ↔ a ∈ ys) : xs = ys := by
  have hne : ∀ a b, lt a b = true → a ≠ b := by
    rintro a _ hab rfl
    rw [hirrefl] at hab
    cases hab
  have hperm : xs.Perm ys :=
    (List.perm_ext_iff_of_nodup (hxs.imp (hne _ _)) (hys.imp (hne _ _))).2 h
  exact hperm.eq_of_pairwise (fun a b _ _ hab hba => absurd rfl (hne a a (htrans hab hba)))
    hxs hys

end Sorting

/-- A sorted set is strictly ascending. -/
theorem sortedSet_ascending (ss : List String) :
    (sortedSet ss).Pairwise fun a b => before a b = true :=
  isOrder_before.sortBy_ascending (nodup_distinct ss)

/-- Lists with the same elements are the same sorted set. -/
theorem sortedSet_congr {ss ts : List String} (h : ∀ s, s ∈ ss ↔ s ∈ ts) :
    sortedSet ss = sortedSet ts :=
  eq_of_ascending before_irrefl before_trans (sortedSet_ascending ss) (sortedSet_ascending ts)
    fun s => by rw [mem_sortedSet, mem_sortedSet, h]

end RouteAssets.Text
