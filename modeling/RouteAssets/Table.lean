/-!
# Ordered tables and small sets

A table maps keys to values and remembers the order in which its keys were first inserted; writing
to a key that is present replaces the value and leaves the order alone. That no key occurs twice is
part of the type. The main facts say what an insertion does to a look-up (`get?_insert`) and to the
keys (`keys_insert`).

A set whose order of insertion shows is a duplicate-free list, grown with `addNew` and `addAll`.
-/

namespace RouteAssets

/-! ## Duplicate-free lists -/

/-- Appends an element unless it is present. -/
def addNew {α : Type} [DecidableEq α] (xs : List α) (x : α) : List α :=
  if x ∈ xs then xs else xs ++ [x]

/-- Appends, in order, the elements that are not present yet. -/
def addAll {α : Type} [DecidableEq α] (xs ys : List α) : List α := ys.foldl addNew xs

/-- The elements of a list at their first occurrences. -/
def distinct {α : Type} [DecidableEq α] (xs : List α) : List α := addAll [] xs

section Sets

variable {α : Type} [DecidableEq α]

theorem mem_addNew {xs : List α} {x y : α} : y ∈ addNew xs x ↔ y ∈ xs ∨ y = x := by
  unfold addNew
  split
  · constructor
    · exact Or.inl
    · rintro (h | rfl)
      · exact h
      · assumption
  · simp

theorem nodup_addNew {xs : List α} {x : α} (h : xs.Nodup) : (addNew xs x).Nodup := by
  unfold addNew
  split
  · exact h
  · rename_i hx
    refine List.nodup_append.2 ⟨h, by simp, ?_⟩
    intro a ha b hb
    rw [List.mem_singleton] at hb
    rintro rfl
    exact hx (hb ▸ ha)

theorem mem_addAll {xs ys : List α} {y : α} : y ∈ addAll xs ys ↔ y ∈ xs ∨ y ∈ ys := by
  induction ys generalizing xs with
  | nil => simp [addAll]
  | cons z zs ih =>
    have := @ih (addNew xs z)
    simp only [addAll, List.foldl_cons] at this ⊢
    rw [this, mem_addNew, List.mem_cons, or_assoc]

theorem nodup_addAll {xs ys : List α} (h : xs.Nodup) : (addAll xs ys).Nodup := by
  induction ys generalizing xs with
  | nil => exact h
  | cons z zs ih => exact ih (nodup_addNew h)

theorem mem_distinct {xs : List α} {x : α} : x ∈ distinct xs ↔ x ∈ xs := by
  simp [distinct, mem_addAll]

theorem nodup_distinct (xs : List α) : (distinct xs).Nodup := nodup_addAll List.nodup_nil

end Sets

/-! ## Tables -/

/-- A finite map with its keys in the order of their first insertion. -/
structure Table (κ α : Type) where
  entries : List (κ × α)
  nodup_keys : (entries.map Prod.fst).Nodup

namespace Table

variable {κ α β : Type}

/-- The keys in order. -/
def keys (t : Table κ α) : List κ := t.entries.map Prod.fst

/-- The values in the order of their keys. -/
def values (t : Table κ α) : List α := t.entries.map Prod.snd

/-- The number of keys. -/
def size (t : Table κ α) : Nat := t.entries.length

/-- The table without keys. -/
def empty : Table κ α := ⟨[], List.nodup_nil⟩

instance : Inhabited (Table κ α) := ⟨empty⟩

instance : EmptyCollection (Table κ α) := ⟨empty⟩

theorem ext_entries {s t : Table κ α} (h : s.entries = t.entries) : s = t := by
  cases s; cases t; simp_all

instance [DecidableEq κ] [DecidableEq α] : DecidableEq (Table κ α) := fun s t =>
  if h : s.entries = t.entries then isTrue (ext_entries h)
  else isFalse fun e => h (e ▸ rfl)

instance [Repr κ] [Repr α] : Repr (Table κ α) := ⟨fun t n => reprPrec t.entries n⟩

/-- Applies a function to every value. -/
def map (f : κ → α → β) (t : Table κ α) : Table κ β where
  entries := t.entries.map fun e => (e.1, f e.1 e.2)
  nodup_keys := by
    have h : (t.entries.map fun e => (e.1, f e.1 e.2)).map Prod.fst = t.entries.map Prod.fst := by
      simp [List.map_map, Function.comp_def]
    rw [h]
    exact t.nodup_keys

theorem keys_map (f : κ → α → β) (t : Table κ α) : (t.map f).keys = t.keys := by
  simp [keys, map, List.map_map, Function.comp_def]

variable [DecidableEq κ]

/-- The value at a key in a list of pairs. -/
def lookup (k : κ) : List (κ × α) → Option α
  | [] => none
  | (k', a) :: es => if k' = k then some a else lookup k es

/-- Writes a value into a list of pairs: over the pair with that key, or behind the last pair. -/
def write (k : κ) (a : α) : List (κ × α) → List (κ × α)
  | [] => [(k, a)]
  | (k', a') :: es => if k' = k then (k', a) :: es else (k', a') :: write k a es

theorem keys_write (k : κ) (a : α) (es : List (κ × α)) :
    (write k a es).map Prod.fst = addNew (es.map Prod.fst) k := by
  induction es with
  | nil => simp [write, addNew]
  | cons e es ih =>
    by_cases h : e.1 = k
    · simp [write, addNew, h]
    · have h' : ¬ k = e.1 := fun e' => h e'.symm
      simp only [write, if_neg h, List.map_cons, ih, addNew, List.mem_cons, h', false_or]
      split <;> simp_all

theorem lookup_write (k k' : κ) (a : α) (es : List (κ × α)) :
    lookup k' (write k a es) = if k = k' then some a else lookup k' es := by
  induction es with
  | nil => simp [write, lookup]
  | cons e es ih =>
    by_cases h : e.1 = k
    · subst h
      by_cases h' : e.1 = k' <;> simp [write, lookup, h']
    · by_cases h' : e.1 = k'
      · subst h'
        have : ¬ k = e.1 := fun e' => h e'.symm
        simp [write, lookup, h, this]
      · simp [write, lookup, h, h', ih]

/-- The value at a key. -/
def get? (t : Table κ α) (k : κ) : Option α := lookup k t.entries

/-- Is the key present? -/
def contains (t : Table κ α) (k : κ) : Bool := (t.get? k).isSome

/-- The value at a key, or the given one. -/
def getD (t : Table κ α) (k : κ) (a : α) : α := (t.get? k).getD a

/-- Writes a value: over the old one of the key, or as the last entry. -/
def insert (t : Table κ α) (k : κ) (a : α) : Table κ α where
  entries := write k a t.entries
  nodup_keys := by
    rw [keys_write]
    exact nodup_addNew t.nodup_keys

/-- The table of a list of pairs; of two pairs with one key the later value wins, at the position
of the earlier. -/
def ofList (es : List (κ × α)) : Table κ α := es.foldl (fun t e => t.insert e.1 e.2) empty

/-- All entries of the second table written into the first. -/
def merge (s t : Table κ α) : Table κ α := t.entries.foldl (fun s e => s.insert e.1 e.2) s

@[simp] theorem get?_empty (k : κ) : (empty : Table κ α).get? k = none := rfl

theorem get?_insert (t : Table κ α) (k k' : κ) (a : α) :
    (t.insert k a).get? k' = if k = k' then some a else t.get? k' := lookup_write k k' a t.entries

theorem keys_insert (t : Table κ α) (k : κ) (a : α) :
    (t.insert k a).keys = addNew t.keys k := keys_write k a t.entries

end Table

end RouteAssets
