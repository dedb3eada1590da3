import RouteAssets.Table
import Mathlib.Data.List.Dedup
import Mathlib.Data.List.Induction
import Mathlib.Data.List.Nodup

/-!
# Laws of ordered tables

* **First occurrences** (`IsFirstSeen.append`, `isFirstSeen_distinct`, `distinct_of_nodup`): a list
  without its repetitions keeps its order, and a list that grows adds to those seen so far.
* **Entries and look-ups** (`mem_entries_iff`): a table holds exactly the pairs that it answers.
* **Building from a list** (`get?_ofList`, `keys_ofList`): of several pairs with one key the last
  one gives the value, the first one gives the place; pairs without a repeated key stay as they are
  (`entries_ofList`).
* **Merging** (`get?_merge`): the second table wins.
* **Mapping** (`get?_map`, `map_ofList`): keys stay where they are.
* **Last writer** (`IsLast`, `get?_ofList_flatMap`, `get?_ofList_filterMap`): where the pairs come
  from some items, the last item with a pair for the key gives the value.
-/

namespace RouteAssets

/-! ## First occurrences -/

/-- First occurrences in two lists, one behind the other. -/
lemma distinct_append {α : Type} [DecidableEq α] (xs ys : List α) :
    distinct (xs ++ ys) = addAll (distinct xs) ys := List.foldl_append

/-- A list holds the elements of another one at their first occurrences: none of them twice, and one
in front of another where it is seen first. -/
structure IsFirstSeen {α : Type} (xs seen : List α) : Prop where
  nodup : seen.Nodup
  mem_iff : ∀ x, x ∈ seen ↔ x ∈ xs
  ordered : seen.Pairwise fun x y => ∃ before after, xs = before ++ x :: after ∧ y ∉ before

section FirstSeen

variable {α : Type} [DecidableEq α]

/-- An element that follows is a first occurrence unless it has been seen. -/
lemma IsFirstSeen.concat {xs seen : List α} (h : IsFirstSeen xs seen) (z : α) :
    IsFirstSeen (xs ++ [z]) (addNew seen z) where
  nodup := nodup_addNew h.nodup
  mem_iff x := by rw [mem_addNew, h.mem_iff, List.mem_append, List.mem_singleton]
  ordered := by
    have hkept : seen.Pairwise fun x y =>
        ∃ before after, xs ++ [z] = before ++ x :: after ∧ y ∉ before := by
      refine h.ordered.imp ?_
      rintro x y ⟨before, after, rfl, hy⟩
      exact ⟨before, after ++ [z], by simp, hy⟩
    rw [addNew]
    split
    · exact hkept
    · rename_i hz
      rw [h.mem_iff] at hz
      refine List.pairwise_append.2 ⟨hkept, List.pairwise_singleton _ _, fun x hx y hy => ?_⟩
      obtain ⟨before, after, hsplit⟩ := List.append_of_mem ((h.mem_iff x).1 hx)
      rw [List.mem_singleton.1 hy]
      exact ⟨before, after ++ [z], by simp [hsplit], fun hmem => hz (by simp [hsplit, hmem])⟩

/-- The first occurrences in a list that grows: what follows is added to those seen so far. -/
lemma IsFirstSeen.append {xs seen : List α} (h : IsFirstSeen xs seen) (ys : List α) :
    IsFirstSeen (xs ++ ys) (addAll seen ys) := by
  induction ys generalizing xs seen with
  | nil => rwa [List.append_nil]
  | cons y ys ih =>
    rw [List.append_cons]
    exact ih (h.concat y)

/-- A list without its repetitions holds its elements at their first occurrences. -/
lemma isFirstSeen_distinct (xs : List α) : IsFirstSeen xs (distinct xs) :=
  have hnil : IsFirstSeen ([] : List α) [] := ⟨List.nodup_nil, fun _ => Iff.rfl, List.Pairwise.nil⟩
  hnil.append xs

/-- A list without its repetitions is as long as the list without its earlier occurrences. -/
lemma length_distinct (xs : List α) : (distinct xs).length = xs.dedup.length := by
  refine List.Perm.length_eq ?_
  refine (List.perm_ext_iff_of_nodup (nodup_distinct xs) (List.nodup_dedup xs)).2 fun x => ?_
  rw [mem_distinct, List.mem_dedup]

/-- A list without its repetitions is not longer than the list. -/
lemma length_distinct_le (xs : List α) : (distinct xs).length ≤ xs.length := by
  rw [length_distinct]
  exact (List.dedup_sublist xs).length_le

/-- It is as long as the list only if there are none. -/
lemma nodup_of_length_le_distinct {xs : List α} (h : xs.length ≤ (distinct xs).length) :
    xs.Nodup := by
  rw [length_distinct] at h
  exact List.dedup_eq_self.1 ((List.dedup_sublist xs).eq_of_length_le h)

/-- A list that has none stays as it is. -/
lemma distinct_of_nodup {xs : List α} (h : xs.Nodup) : distinct xs = xs := by
  induction xs using List.reverseRecOn with
  | nil => rfl
  | append_singleton xs x ih =>
    rw [List.nodup_append] at h
    have hx : x ∉ xs := fun hx => h.2.2 x hx x (List.mem_singleton_self x) rfl
    rw [distinct_append, ih h.1]
    exact if_neg hx

end FirstSeen

namespace Table

variable {κ α β : Type}

/-! ## Look-ups in lists of pairs -/

section Lookup

variable [DecidableEq κ]

/-- Looking up in two lists, the first one first. -/
lemma lookup_append (k : κ) (es fs : List (κ × α)) :
    lookup k (es ++ fs) = (lookup k es).or (lookup k fs) := by
  induction es with
  | nil => simp [lookup]
  | cons e es ih =>
    by_cases h : e.1 = k
    · simp [lookup, h]
    · simp [lookup, h, ih]

/-- A look-up answers with a pair of the list. -/
lemma mem_of_lookup {k : κ} {a : α} {es : List (κ × α)} (h : lookup k es = some a) :
    (k, a) ∈ es := by
  induction es with
  | nil => simp [lookup] at h
  | cons e es ih =>
    obtain ⟨k', a'⟩ := e
    by_cases hk : k' = k
    · simp only [lookup, if_pos hk, Option.some.injEq] at h
      rw [hk, h]
      exact List.mem_cons_self
    · simp only [lookup, if_neg hk] at h
      exact List.mem_cons_of_mem _ (ih h)

/-- Nothing is found exactly for keys that do not occur. -/
lemma lookup_eq_none_iff {k : κ} {es : List (κ × α)} :
    lookup k es = none ↔ k ∉ es.map Prod.fst := by
  induction es with
  | nil => simp [lookup]
  | cons e es ih =>
    by_cases hk : e.1 = k
    · simp [lookup, hk]
    · have hk' : k ≠ e.1 := fun h => hk h.symm
      simp [lookup, hk, hk', ih]

/-- Where no key occurs twice, every pair is what its key is looked up as. -/
lemma lookup_of_mem {k : κ} {a : α} {es : List (κ × α)} (hn : (es.map Prod.fst).Nodup)
    (h : (k, a) ∈ es) : lookup k es = some a := by
  induction es with
  | nil => simp at h
  | cons e es ih =>
    rw [List.map_cons, List.nodup_cons] at hn
    rcases List.mem_cons.1 h with rfl | h
    · simp [lookup]
    · have hk : e.1 ≠ k := fun he => hn.1 (he ▸ List.mem_map_of_mem (f := Prod.fst) h)
      rw [lookup, if_neg hk]
      exact ih hn.2 h

/-- Looking up in a list whose values were mapped. -/
lemma lookup_map (f : κ → α → β) (es : List (κ × α)) (k : κ) :
    lookup k (es.map fun e => (e.1, f e.1 e.2)) = (lookup k es).map (f k) := by
  induction es with
  | nil => rfl
  | cons e es ih =>
    by_cases h : e.1 = k
    · simp [lookup, h]
    · simp [lookup, h, ih]

end Lookup

/-! ## Entries -/

section Entries

variable [DecidableEq κ]

/-- A table holds exactly the pairs that it answers. -/
lemma mem_entries_iff {t : Table κ α} {k : κ} {a : α} :
    (k, a) ∈ t.entries ↔ t.get? k = some a :=
  ⟨lookup_of_mem t.nodup_keys, mem_of_lookup⟩

/-- The value at a key after an insertion, with a value for missing keys. -/
lemma getD_insert (t : Table κ α) (k k' : κ) (a d : α) :
    (t.insert k a).getD k' d = if k = k' then a else t.getD k' d := by
  unfold getD
  rw [get?_insert]
  split <;> rfl

/-- An empty table has the given value everywhere. -/
@[simp] lemma getD_empty (k : κ) (d : α) : (empty : Table κ α).getD k d = d := rfl

/-- The value of a missing key is the given one. -/
lemma getD_of_none {t : Table κ α} {k : κ} (h : t.get? k = none) (d : α) : t.getD k d = d := by
  rw [getD, h]
  rfl

/-- An element of a list value is an element of the list at its key. -/
lemma mem_getD_nil_iff {t : Table κ (List α)} {k : κ} {x : α} :
    x ∈ t.getD k [] ↔ ∃ xs, t.get? k = some xs ∧ x ∈ xs := by
  unfold getD
  cases t.get? k <;> simp

end Entries

/-! ## Building, merging, mapping -/

section Building

variable [DecidableEq κ]

/-- Writing pairs one by one into a table. -/
lemma get?_foldl_insert (es : List (κ × α)) (t : Table κ α) (k : κ) :
    (es.foldl (fun t e => t.insert e.1 e.2) t).get? k = (lookup k es.reverse).or (t.get? k) := by
  induction es generalizing t with
  | nil => simp [lookup]
  | cons e es ih =>
    rw [List.foldl_cons, ih, get?_insert, List.reverse_cons, lookup_append, Option.or_assoc]
    by_cases h : e.1 = k <;> simp [lookup, h]

/-- The keys after writing pairs one by one. -/
lemma keys_foldl_insert (es : List (κ × α)) (t : Table κ α) :
    (es.foldl (fun t e => t.insert e.1 e.2) t).keys = addAll t.keys (es.map Prod.fst) := by
  induction es generalizing t with
  | nil => rfl
  | cons e es ih => rw [List.foldl_cons, ih, keys_insert, List.map_cons, addAll, addAll,
      List.foldl_cons]

/-- Of several pairs with one key the last one gives the value. -/
lemma get?_ofList (es : List (κ × α)) (k : κ) : (ofList es).get? k = lookup k es.reverse := by
  unfold ofList
  rw [get?_foldl_insert, get?_empty, Option.or_none]

/-- A pair gives the value of its key if no pair gives it another one. -/
lemma get?_ofList_of_unique {es : List (κ × α)} {k : κ} {a : α} (h : (k, a) ∈ es)
    (hunique : ∀ a', (k, a') ∈ es → a' = a) : (ofList es).get? k = some a := by
  rw [get?_ofList]
  cases hlookup : lookup k es.reverse with
  | none =>
    rw [lookup_eq_none_iff, List.map_reverse, List.mem_reverse] at hlookup
    exact absurd (List.mem_map_of_mem (f := Prod.fst) h) hlookup
  | some a' => rw [hunique a' (List.mem_reverse.1 (mem_of_lookup hlookup))]

/-- The keys of a list of pairs at their first occurrences. -/
lemma keys_ofList (es : List (κ × α)) : (ofList es).keys = distinct (es.map Prod.fst) :=
  keys_foldl_insert es empty

/-- A pair with a new key is written behind the others. -/
lemma write_of_not_mem {k : κ} {es : List (κ × α)} (hk : k ∉ es.map Prod.fst) (a : α) :
    write k a es = es ++ [(k, a)] := by
  induction es with
  | nil => rfl
  | cons e es ih =>
    rw [List.map_cons, List.mem_cons, not_or] at hk
    rw [write, if_neg (Ne.symm hk.1), ih hk.2, List.cons_append]

/-- Pairs without a repeated key are the entries of their table. -/
lemma entries_ofList {es : List (κ × α)} (hn : (es.map Prod.fst).Nodup) :
    (ofList es).entries = es := by
  induction es using List.reverseRecOn with
  | nil => rfl
  | append_singleton es e ih =>
    rw [List.map_append, List.map_singleton, List.nodup_append] at hn
    obtain ⟨hes, -, hnew⟩ := hn
    have he : e.1 ∉ es.map Prod.fst := fun h => hnew _ h _ (List.mem_singleton_self _) rfl
    have hsnoc : (ofList (es ++ [e])).entries = write e.1 e.2 (ofList es).entries := by
      simp only [ofList, List.foldl_append]
      rfl
    rw [hsnoc, ih hes, write_of_not_mem he]

/-- In a merged table the second one wins. -/
lemma get?_merge (s t : Table κ α) (k : κ) : (s.merge t).get? k = (t.get? k).or (s.get? k) := by
  unfold merge
  rw [get?_foldl_insert]
  congr 1
  have hn : (t.entries.reverse.map Prod.fst).Nodup := by
    rw [List.map_reverse, List.nodup_reverse]
    exact t.nodup_keys
  rcases h : t.get? k with _ | a
  · rw [lookup_eq_none_iff, List.map_reverse, List.mem_reverse]
    exact lookup_eq_none_iff.1 h
  · exact lookup_of_mem hn (List.mem_reverse.2 (mem_entries_iff.2 h))

/-- Mapping changes values and nothing else. -/
lemma get?_map (f : κ → α → β) (t : Table κ α) (k : κ) :
    (t.map f).get? k = (t.get? k).map (f k) := lookup_map f t.entries k

/-- Mapping after writing a pair into a list of pairs, and before. -/
lemma map_write (f : κ → α → β) (k : κ) (a : α) (es : List (κ × α)) :
    (write k a es).map (fun e => (e.1, f e.1 e.2)) =
      write k (f k a) (es.map fun e => (e.1, f e.1 e.2)) := by
  induction es with
  | nil => rfl
  | cons e es ih =>
    by_cases h : e.1 = k
    · simp [write, h]
    · simp [write, h, ih]

/-- A table of a list of pairs is mapped by mapping the pairs. -/
lemma map_ofList (f : κ → α → β) (es : List (κ × α)) :
    (ofList es).map f = ofList (es.map fun e => (e.1, f e.1 e.2)) := by
  have hfold : ∀ t : Table κ α, (es.foldl (fun t e => t.insert e.1 e.2) t).map f =
      (es.map fun e => (e.1, f e.1 e.2)).foldl (fun t e => t.insert e.1 e.2) (t.map f) := by
    induction es with
    | nil => exact fun _ => rfl
    | cons e es ih =>
      intro t
      have hinsert : (t.insert e.1 e.2).map f = (t.map f).insert e.1 (f e.1 e.2) :=
        ext_entries (map_write f e.1 e.2 t.entries)
      rw [List.foldl_cons, ih, hinsert]
      rfl
  exact hfold empty

end Building

end Table

/-! ## The last one of a kind -/

/-- An item is the last one in a list with a property. -/
def IsLast {α : Type} (kind : α → Prop) (xs : List α) (x : α) : Prop :=
  ∃ before after, xs = before ++ x :: after ∧ kind x ∧ ∀ y ∈ after, ¬ kind y

section IsLast

variable {α : Type} {kind : α → Prop}

/-- A list without items has no last one. -/
lemma not_isLast_nil (x : α) : ¬ IsLast kind [] x := by
  rintro ⟨before, after, h, -⟩
  simp at h

/-- The last one of a kind in a list with a new item at its end. -/
lemma isLast_concat_iff {xs : List α} {x y : α} :
    IsLast kind (xs ++ [y]) x ↔ (x = y ∧ kind y) ∨ (¬ kind y ∧ IsLast kind xs x) := by
  constructor
  · rintro ⟨before, after, h, hx, hafter⟩
    rcases List.eq_nil_or_concat after with rfl | ⟨after, z, rfl⟩
    · obtain ⟨-, h⟩ := List.append_inj' h rfl
      rw [List.cons_eq_cons] at h
      exact Or.inl ⟨h.1.symm, h.1 ▸ hx⟩
    · rw [List.concat_eq_append] at hafter
      rw [List.concat_eq_append, ← List.cons_append, ← List.append_assoc] at h
      obtain ⟨hxs, hy⟩ := List.append_inj' h rfl
      rw [List.singleton_inj] at hy
      subst hxs hy
      refine Or.inr ⟨hafter y (by simp), before, after, rfl, hx, fun z hz => ?_⟩
      exact hafter z (List.mem_append_left _ hz)
  · rintro (⟨rfl, hx⟩ | ⟨hy, before, after, rfl, hx, hafter⟩)
    · exact ⟨xs, [], rfl, hx, by simp⟩
    · refine ⟨before, after ++ [y], by simp, hx, fun z hz => ?_⟩
      rcases List.mem_append.1 hz with hz | hz
      · exact hafter z hz
      · exact List.mem_singleton.1 hz ▸ hy

/-- A list with an item of a kind has a last one. -/
lemma exists_isLast {xs : List α} (h : ∃ x ∈ xs, kind x) : ∃ x, IsLast kind xs x := by
  induction xs using List.reverseRecOn with
  | nil => simp at h
  | append_singleton xs y ih =>
    by_cases hy : kind y
    · exact ⟨y, isLast_concat_iff.2 (Or.inl ⟨rfl, hy⟩)⟩
    · obtain ⟨x, hx, hkind⟩ := h
      have hxs : x ∈ xs := by
        rcases List.mem_append.1 hx with hx | hx
        · exact hx
        · exact absurd (List.mem_singleton.1 hx ▸ hkind) hy
      obtain ⟨z, hz⟩ := ih ⟨x, hxs, hkind⟩
      exact ⟨z, isLast_concat_iff.2 (Or.inr ⟨hy, hz⟩)⟩

/-- The last one of a kind is an item of the list. -/
lemma IsLast.mem {xs : List α} {x : α} (h : IsLast kind xs x) : x ∈ xs := by
  obtain ⟨before, after, rfl, -, -⟩ := h
  exact List.mem_append_right _ List.mem_cons_self

/-- The last one of a kind is of that kind. -/
lemma IsLast.holds {xs : List α} {x : α} (h : IsLast kind xs x) : kind x := by
  obtain ⟨-, -, -, hx, -⟩ := h
  exact hx

/-- Where no key occurs twice, an item whose kind only items with its key have is the last one. -/
lemma isLast_of_nodup {κ : Type} {key : α → κ} {xs : List α} {x : α} (hn : (xs.map key).Nodup)
    (hx : x ∈ xs) (hkind : kind x) (hkey : ∀ y, kind y → key y = key x) : IsLast kind xs x := by
  obtain ⟨before, after, rfl⟩ := List.append_of_mem hx
  refine ⟨before, after, rfl, hkind, fun y hy hy' => ?_⟩
  rw [List.map_append, List.map_cons, List.nodup_append, List.nodup_cons] at hn
  exact hn.2.1.1 (hkey y hy' ▸ List.mem_map_of_mem hy)

/-- A list has at most one last item of a kind. -/
lemma IsLast.unique {xs : List α} {x y : α} (hx : IsLast kind xs x) (hy : IsLast kind xs y) :
    x = y := by
  induction xs using List.reverseRecOn with
  | nil => exact absurd hx (not_isLast_nil x)
  | append_singleton xs z ih =>
    rcases isLast_concat_iff.1 hx with ⟨rfl, hz⟩ | ⟨hz, hx⟩
    · rcases isLast_concat_iff.1 hy with ⟨rfl, -⟩ | ⟨hz', -⟩
      · rfl
      · exact absurd hz hz'
    · rcases isLast_concat_iff.1 hy with ⟨-, hz'⟩ | ⟨-, hy⟩
      · exact absurd hz' hz
      · exact ih hx hy

/-- The last one of a kind is the last one of each narrower kind that it is of. -/
lemma IsLast.narrow {narrow : α → Prop} {xs : List α} {x : α} (h : IsLast kind xs x)
    (hnarrow : narrow x) (hsub : ∀ y, narrow y → kind y) : IsLast narrow xs x := by
  obtain ⟨before, after, rfl, -, hafter⟩ := h
  exact ⟨before, after, rfl, hnarrow, fun y hy hy' => hafter y hy (hsub y hy')⟩

/-- Two kinds with the same items in a list have the same last ones there. -/
lemma isLast_congr {kind' : α → Prop} {xs : List α} {x : α} (h : ∀ y ∈ xs, kind y ↔ kind' y) :
    IsLast kind xs x ↔ IsLast kind' xs x := by
  constructor
  · rintro ⟨before, after, rfl, hx, hafter⟩
    exact ⟨before, after, rfl, (h x (by simp)).1 hx,
      fun y hy hy' => hafter y hy ((h y (by simp [hy])).2 hy')⟩
  · rintro ⟨before, after, rfl, hx, hafter⟩
    exact ⟨before, after, rfl, (h x (by simp)).2 hx,
      fun y hy hy' => hafter y hy ((h y (by simp [hy])).1 hy')⟩

/-- The last one of a kind among images is the image of the last item with an image of this kind. -/
lemma isLast_map_iff {β : Type} {f : β → α} {xs : List β} {y : α} :
    IsLast kind (xs.map f) y ↔ ∃ x, IsLast (fun x => kind (f x)) xs x ∧ f x = y := by
  induction xs using List.reverseRecOn with
  | nil => simp [not_isLast_nil]
  | append_singleton xs z ih =>
    rw [List.map_append, List.map_singleton, isLast_concat_iff, ih]
    simp only [isLast_concat_iff]
    constructor
    · rintro (⟨rfl, hz⟩ | ⟨hz, x, hx, rfl⟩)
      · exact ⟨z, Or.inl ⟨rfl, hz⟩, rfl⟩
      · exact ⟨x, Or.inr ⟨hz, hx⟩, rfl⟩
    · rintro ⟨x, ⟨rfl, hz⟩ | ⟨hz, hx⟩, rfl⟩
      · exact Or.inl ⟨rfl, hz⟩
      · exact Or.inr ⟨hz, x, hx, rfl⟩

/-- Where every item contributes pairs, the last item with a pair for a key gives its value. -/
lemma Table.get?_ofList_flatMap {κ β : Type} [DecidableEq κ] (f : α → List (κ × β)) (xs : List α)
    (k : κ) (v : β) :
    (Table.ofList (xs.flatMap f)).get? k = some v ↔
      ∃ x, IsLast (fun x => k ∈ (f x).map Prod.fst) xs x ∧ (Table.ofList (f x)).get? k = some v := by
  simp only [Table.get?_ofList]
  induction xs using List.reverseRecOn with
  | nil => simp [Table.lookup, not_isLast_nil]
  | append_singleton xs y ih =>
    rw [List.flatMap_append, List.flatMap_singleton, List.reverse_append, Table.lookup_append]
    simp only [isLast_concat_iff]
    by_cases hy : k ∈ (f y).map Prod.fst
    · obtain ⟨w, hw⟩ : ∃ w, Table.lookup k (f y).reverse = some w := by
        rw [← Option.ne_none_iff_exists', Ne, Table.lookup_eq_none_iff, List.map_reverse,
          List.mem_reverse]
        exact not_not_intro hy
      simp [hw, hy]
    · have hnone : Table.lookup k (f y).reverse = none := by
        rw [Table.lookup_eq_none_iff, List.map_reverse, List.mem_reverse]
        exact hy
      simp only [hnone, Option.none_or, ih, hy, and_false, not_false_eq_true, true_and, false_or]

/-- Where every item contributes one pair, the last item with the key gives the value. -/
lemma Table.get?_ofList_map {κ β : Type} [DecidableEq κ] (key : α → κ) (value : α → β)
    (xs : List α) (k : κ) (v : β) :
    (Table.ofList (xs.map fun x => (key x, value x))).get? k = some v ↔
      ∃ x, IsLast (fun x => key x = k) xs x ∧ value x = v := by
  rw [List.map_eq_flatMap, Table.get?_ofList_flatMap]
  refine exists_congr fun x => ?_
  simp only [List.map_cons, List.map_nil, List.mem_singleton, eq_comm (a := k)]
  refine and_congr_right fun ⟨_, _, _, hx, _⟩ => ?_
  simp [Table.get?_ofList, Table.lookup, hx]

/-- Where an item contributes a pair or none, the last item with a pair for a key gives its value. -/
lemma Table.get?_ofList_filterMap {κ β : Type} [DecidableEq κ] (key : α → κ) (value? : α → Option β)
    (xs : List α) (k : κ) (v : β) :
    (Table.ofList (xs.filterMap fun x => (value? x).map fun a => (key x, a))).get? k = some v ↔
      ∃ x, IsLast (fun x => key x = k ∧ value? x ≠ none) xs x ∧ value? x = some v := by
  have hkind : ∀ x, (k ∈ ((value? x).map fun a => (key x, a)).toList.map Prod.fst) =
      (key x = k ∧ value? x ≠ none) := by
    intro x
    cases value? x <;> simp [eq_comm]
  rw [List.filterMap_eq_flatMap_toList, Table.get?_ofList_flatMap]
  simp only [hkind]
  refine exists_congr fun x => and_congr_right fun hlast => ?_
  obtain ⟨hkey, hvalue⟩ := hlast.holds
  obtain ⟨a, ha⟩ := Option.ne_none_iff_exists'.1 hvalue
  simp [Table.get?_ofList, Table.lookup, ha, hkey]

end IsLast

end RouteAssets
