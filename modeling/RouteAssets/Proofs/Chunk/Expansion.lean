import RouteAssets.Chunk.Expansion
import RouteAssets.Chunk.Selection
import RouteAssets.Proofs.Table
import Mathlib.Data.Finset.Card
import Mathlib.Data.Finset.SDiff
import Mathlib.Logic.Relation

/-!
# Imported chunks are those that imports lead to

A file imports what the last chunk with this file lists (`Imports`); an import is followed unless one
of its ends is the main entry (`Follows`).

* **One step** (`Searched.step`): the invariant `Searched` ties the queue and the files that have
  been met to the files that imports lead to.
* **Ending** (`unmet_step_le`, `endsWith_reach`): a file joins the queue once, and only if it has
  not been met, so the waiting files and the imports that have not been met bound the run.
* **Exactness** (`mem_expandFiles_iff`): the files of a route with all that their chunks import are
  those that imports lead to from one of them, the main entry excepted.
* **Closure** (`expandStatic_closure`): every search ends, the files of each route are those and
  sorted, and adding what they import once more adds nothing.
-/

namespace RouteAssets.Chunk

open RouteAssets.Text

variable {α : Type}

/-! ## Imports between files -/

/-- A file imports another one: the last chunk with this file lists it. -/
def Imports (cs : List (Chunk α)) (a b : FileName) : Prop :=
  ∃ c, IsLast (fun c => c.file = a) cs c ∧ b ∈ c.imports

/-- An import that is followed: the main entry is neither left nor entered. -/
def Follows (cs : List (Chunk α)) (a b : FileName) : Prop :=
  some a ≠ mainFile? cs ∧ some b ≠ mainFile? cs ∧ Imports cs a b

/-- Imports that are followed lead from a file to another one. -/
abbrev LeadsTo (cs : List (Chunk α)) : FileName → FileName → Prop :=
  Relation.ReflTransGen (Follows cs)

/-- The table of imports holds what files import. -/
lemma mem_getD_importsByChunk_iff {cs : List (Chunk α)} {a b : FileName} :
    b ∈ (importsByChunk cs).getD a [] ↔ Imports cs a b := by
  rw [Table.mem_getD_nil_iff]
  simp only [importsByChunk, Table.get?_ofList_map Chunk.file Chunk.imports, Imports]
  constructor
  · rintro ⟨_, ⟨c, hc, rfl⟩, hb⟩
    exact ⟨c, hc, hb⟩
  · rintro ⟨c, hc, hb⟩
    exact ⟨_, ⟨c, hc, rfl⟩, hb⟩

/-- The files that a file leads to directly are those of the imports that are followed. -/
lemma mem_importsOf_iff {cs : List (Chunk α)} {a b : FileName} :
    b ∈ importsOf (importsByChunk cs) (mainFile? cs) a ↔ Follows cs a b := by
  unfold importsOf Follows
  by_cases ha : some a = mainFile? cs
  · simp [ha]
  · simp only [beq_iff_eq, ha, if_false, List.mem_filter, bne_iff_ne, mem_getD_importsByChunk_iff,
      ne_eq, not_false_eq_true, true_and]
    exact and_comm

/-! ## The search -/

section Search

variable {next : FileName → List FileName} {files queue reached : List FileName}

/-- What every search from some files keeps: the files are met, whatever is met is led to from one of
them, what waits has been met, and whatever a file leads to is met unless the file waits. -/
structure Searched (next : FileName → List FileName) (files queue reached : List FileName) : Prop where
  files_met : ∀ f ∈ files, f ∈ reached
  met_led_to : ∀ x ∈ reached, ∃ f ∈ files, Relation.ReflTransGen (fun a b => b ∈ next a) f x
  queue_met : ∀ x ∈ queue, x ∈ reached
  next_met : ∀ x ∈ reached, x ∉ queue → ∀ y ∈ next x, y ∈ reached

/-- The invariant holds before the first step. -/
lemma Searched.start (next : FileName → List FileName) (files : List FileName) :
    Searched next files files (distinct files) where
  files_met _ hf := mem_distinct.2 hf
  met_led_to x hx := ⟨x, mem_distinct.1 hx, .refl⟩
  queue_met _ hx := mem_distinct.2 hx
  next_met _ hx hq := absurd (mem_distinct.1 hx) hq

/-- The files that are met when a file is taken out of the queue. -/
def newFiles (next : FileName → List FileName) (file : FileName) (reached : List FileName) :
    List FileName :=
  distinct ((next file).filter (!reached.contains ·))

/-- New files are those that the file leads to and that have not been met. -/
lemma mem_newFiles_iff {file x : FileName} :
    x ∈ newFiles next file reached ↔ x ∈ next file ∧ x ∉ reached := by
  simp [newFiles, mem_distinct]

/-- Every step keeps the invariant. -/
lemma Searched.step {file : FileName} (h : Searched next files (file :: queue) reached) :
    Searched next files (queue ++ newFiles next file reached)
      (reached ++ newFiles next file reached) where
  files_met f hf := List.mem_append_left _ (h.files_met f hf)
  met_led_to x hx := by
    rcases List.mem_append.1 hx with hx | hx
    · exact h.met_led_to x hx
    · obtain ⟨f, hf, hfile⟩ := h.met_led_to file (h.queue_met file List.mem_cons_self)
      exact ⟨f, hf, hfile.tail (mem_newFiles_iff.1 hx).1⟩
  queue_met x hx := by
    rcases List.mem_append.1 hx with hx | hx
    · exact List.mem_append_left _ (h.queue_met x (List.mem_cons_of_mem file hx))
    · exact List.mem_append_right _ hx
  next_met x hx hq y hy := by
    rw [List.mem_append, not_or] at hq
    have hmet : x ∈ reached := (List.mem_append.1 hx).resolve_right hq.2
    by_cases hfile : x = file
    · subst hfile
      by_cases hy' : y ∈ reached
      · exact List.mem_append_left _ hy'
      · exact List.mem_append_right _ (mem_newFiles_iff.2 ⟨hy, hy'⟩)
    · have hwaits : x ∉ file :: queue := by simp [hfile, hq.1]
      exact List.mem_append_left _ (h.next_met x hmet hwaits y hy)

/-- The search that goes on while a file waits, however long that takes: it ends with the files
`all`. -/
inductive EndsWith (next : FileName → List FileName) :
    List FileName → List FileName → List FileName → Prop
  | done (reached : List FileName) : EndsWith next [] reached reached
  | follow {file : FileName} {queue reached all : List FileName}
      (h : EndsWith next (queue ++ newFiles next file reached)
        (reached ++ newFiles next file reached) all) : EndsWith next (file :: queue) reached all

/-- A search that ends has met exactly what the files lead to. -/
lemma Searched.mem_iff_of_endsWith {all : List FileName} (h : Searched next files queue reached)
    (hall : EndsWith next queue reached all) (x : FileName) :
    x ∈ all ↔ ∃ f ∈ files, Relation.ReflTransGen (fun a b => b ∈ next a) f x := by
  induction hall with
  | done reached =>
    refine ⟨h.met_led_to x, ?_⟩
    rintro ⟨f, hf, hx⟩
    induction hx with
    | refl => exact h.files_met f hf
    | tail _ hstep ih => exact h.next_met _ ih List.not_mem_nil _ hstep
  | follow _ ih => exact ih h.step

/-! ## Ending -/

/-- The number of files of a finite set that have not been met. -/
def unmet (U : Finset FileName) (reached : List FileName) : Nat := (U \ reached.toFinset).card

/-- The files that join the queue were not met before. -/
lemma unmet_step_le {U : Finset FileName} {file : FileName} (hU : ∀ x ∈ next file, x ∈ U) :
    unmet U (reached ++ newFiles next file reached) + (newFiles next file reached).length ≤
      unmet U reached := by
  have hnodup : (newFiles next file reached).Nodup := nodup_distinct _
  have hsub : (newFiles next file reached).toFinset ⊆ U \ reached.toFinset := by
    intro x hx
    obtain ⟨hnext, hnew⟩ := mem_newFiles_iff.1 (List.mem_toFinset.1 hx)
    exact Finset.mem_sdiff.2 ⟨hU x hnext, fun hr => hnew (List.mem_toFinset.1 hr)⟩
  have hrest : U \ (reached ++ newFiles next file reached).toFinset =
      (U \ reached.toFinset) \ (newFiles next file reached).toFinset := by
    rw [List.toFinset_append, sdiff_sdiff_left, Finset.sup_eq_union]
  unfold unmet
  rw [hrest, Finset.card_sdiff_of_subset hsub, List.toFinset_card_of_nodup hnodup]
  have hcard := Finset.card_le_card hsub
  rw [List.toFinset_card_of_nodup hnodup] at hcard
  omega

/-- A search with enough steps ends, when every import lies in a finite set. -/
lemma endsWith_reachFor {U : Finset FileName} (hU : ∀ f, ∀ x ∈ next f, x ∈ U) {n : Nat}
    (hn : queue.length + unmet U reached ≤ n) :
    EndsWith next queue reached (reachFor next n queue reached) := by
  induction n generalizing queue reached with
  | zero =>
    have hqueue : queue = [] := List.length_eq_zero_iff.1 (by omega)
    subst hqueue
    exact .done reached
  | succ n ih =>
    cases queue with
    | nil => exact .done reached
    | cons file queue =>
      have hle := @unmet_step_le next reached U file (hU file)
      refine .follow (ih ?_)
      rw [List.length_cons] at hn
      rw [List.length_append]
      omega

end Search

/-! ## Exactness -/

/-- The search for the files that some files lead to ends. -/
lemma endsWith_reach (cs : List (Chunk α)) (files : List FileName) :
    EndsWith (importsOf (importsByChunk cs) (mainFile? cs)) files (distinct files)
      (reach (importsByChunk cs) (mainFile? cs) files) := by
  let U := (importsByChunk cs).values.flatten.toFinset
  have hU : ∀ f, ∀ y ∈ importsOf (importsByChunk cs) (mainFile? cs) f, y ∈ U := by
    intro f y hy
    obtain ⟨-, -, himports⟩ := mem_importsOf_iff.1 hy
    obtain ⟨xs, hxs, hmem⟩ :=
      Table.mem_getD_nil_iff.1 (mem_getD_importsByChunk_iff.2 himports)
    have hvalue : xs ∈ (importsByChunk cs).values :=
      List.mem_map_of_mem (f := Prod.snd) (Table.mem_entries_iff.2 hxs)
    exact List.mem_toFinset.2 (List.mem_flatten.2 ⟨xs, hvalue, hmem⟩)
  have hbound : files.length + unmet U (distinct files) ≤
      files.length + importCount (importsByChunk cs) := by
    have hcard : unmet U (distinct files) ≤ U.card := Finset.card_le_card Finset.sdiff_subset
    have hlength : U.card ≤ importCount (importsByChunk cs) := List.toFinset_card_le _
    omega
  exact endsWith_reachFor hU hbound

/-- The files that some files lead to are found. -/
lemma mem_reach_iff (cs : List (Chunk α)) (files : List FileName) (x : FileName) :
    x ∈ reach (importsByChunk cs) (mainFile? cs) files ↔ ∃ f ∈ files, LeadsTo cs f x := by
  rw [(Searched.start _ files).mem_iff_of_endsWith (endsWith_reach cs files)]
  simp only [mem_importsOf_iff]

/-- The files of a route with all that their chunks import: what the files lead to. The main entry is
left out if it has a name. -/
lemma mem_expandFiles_iff (cs : List (Chunk α)) (files : List FileName) (x : FileName) :
    x ∈ expandFiles (importsByChunk cs) (mainFile? cs) files ↔
      (some x ≠ mainFile? cs ∨ x = "") ∧ ∃ f ∈ files, LeadsTo cs f x := by
  rw [expandFiles, mem_sortedSet, List.mem_filter, mem_reach_iff, Bool.or_eq_true, bne_iff_ne,
    beq_iff_eq]
  exact and_comm

/-! ## Closure -/

/-- The files of a route are the same when they have the same elements, since they are sorted. -/
lemma expandFiles_congr {imports : Table FileName (List FileName)} {main : Option FileName}
    {files files' : List FileName}
    (h : ∀ x, x ∈ expandFiles imports main files ↔ x ∈ expandFiles imports main files') :
    expandFiles imports main files = expandFiles imports main files' := by
  unfold expandFiles at h ⊢
  simp only [mem_sortedSet] at h
  exact sortedSet_congr h

/-- Files with all that they import have no other imports. -/
lemma expandFiles_idem (cs : List (Chunk α)) (files : List FileName) :
    expandFiles (importsByChunk cs) (mainFile? cs)
        (expandFiles (importsByChunk cs) (mainFile? cs) files) =
      expandFiles (importsByChunk cs) (mainFile? cs) files := by
  refine expandFiles_congr fun x => ?_
  rw [mem_expandFiles_iff]
  constructor
  · rintro ⟨hx, f, hf, hfx⟩
    obtain ⟨-, g, hg, hgf⟩ := (mem_expandFiles_iff cs files f).1 hf
    exact (mem_expandFiles_iff cs files x).2 ⟨hx, g, hg, hgf.trans hfx⟩
  · intro hx
    exact ⟨((mem_expandFiles_iff cs files x).1 hx).1, x, hx, .refl⟩

/-- What files lead to are the files themselves and what imports lead to from those of them that are
not the main entry. -/
lemma exists_leadsTo_iff {cs : List (Chunk α)} {files : List FileName} {x : FileName} :
    (∃ f ∈ files, LeadsTo cs f x) ↔
      x ∈ files ∨ ∃ f ∈ files, some f ≠ mainFile? cs ∧ LeadsTo cs f x := by
  constructor
  · rintro ⟨f, hf, hfx⟩
    rcases hfx.cases_head with rfl | ⟨y, hfy, hyx⟩
    · exact Or.inl hf
    · exact Or.inr ⟨f, hf, hfy.1, hyx.head hfy⟩
  · rintro (hx | ⟨f, hf, -, hfx⟩)
    · exact ⟨x, hx, .refl⟩
    · exact ⟨f, hf, hfx⟩

/-- **Adding imported chunks is a closure.** If the main entry, where there is one, has a name, the
search from the files of each route ends, over whatever imports. The route then has, in strictly
ascending order, exactly the files other than the main entry that it had or that imports lead to,
past the main entry, from a file that it had. The routes stay in their order, and adding what is
imported once more changes nothing. -/
theorem expandStatic_closure (routes : RouteMap) (cs : List (Chunk α))
    (hmain : mainFile? cs ≠ some "") :
    (expandStatic routes cs).keys = routes.keys ∧
    (∀ route files, routes.get? route = some files →
      EndsWith (importsOf (importsByChunk cs) (mainFile? cs)) files (distinct files)
        (reach (importsByChunk cs) (mainFile? cs) files) ∧
      ∃ all, (expandStatic routes cs).get? route = some all ∧
        (all.Pairwise fun a b => before a b = true) ∧
        ∀ x, x ∈ all ↔ some x ≠ mainFile? cs ∧
          (x ∈ files ∨ ∃ f ∈ files, some f ≠ mainFile? cs ∧ LeadsTo cs f x)) ∧
    expandStatic (expandStatic routes cs) cs = expandStatic routes cs := by
  refine ⟨Table.keys_map _ routes, fun route files hfiles => ⟨endsWith_reach cs files, ?_⟩, ?_⟩
  · have hnamed : ∀ x, (some x ≠ mainFile? cs ∨ x = "") ↔ some x ≠ mainFile? cs := by
      intro x
      refine or_iff_left_of_imp ?_
      rintro rfl
      exact hmain.symm
    refine ⟨expandFiles (importsByChunk cs) (mainFile? cs) files, ?_, sortedSet_ascending _,
      fun x => ?_⟩
    · rw [expandStatic, Table.get?_map, hfiles, Option.map_some]
    rw [mem_expandFiles_iff, hnamed, exists_leadsTo_iff]
  · refine Table.ext_entries ?_
    simp only [expandStatic, Table.map, List.map_map]
    exact List.map_congr_left fun e _ => Prod.ext rfl (expandFiles_idem cs e.2)

/-- Two chunks that import each other, the main entry and a chunk that is not there: a route that
lists one of them twice, and the main entry, gets both and the missing chunk. What only the main
entry imports is not added. -/
theorem expandStatic_closure_of_cycle :
    let chunk := fun file imports entry =>
      ({ Chunk.ofFile (α := String) file with imports, isEntry := entry } : Chunk String)
    let cs := [chunk "main.js" ["big.js"] true, chunk "a.js" ["b.js", "main.js", "gone.js"] false,
      chunk "b.js" ["a.js"] false, chunk "big.js" [] false]
    let routes : RouteMap := Table.ofList [("/a", ["main.js", "a.js", "a.js"]), ("/", [])]
    mainFile? cs ≠ some "" ∧
      (∃ all, (expandStatic routes cs).get? "/a" = some all ∧ "b.js" ∈ all ∧ "main.js" ∉ all) ∧
      expandStatic routes cs = Table.ofList [("/a", ["a.js", "b.js", "gone.js"]), ("/", [])] ∧
      expandStatic (expandStatic routes cs) cs = expandStatic routes cs := by
  intro chunk cs routes
  have hmain : mainFile? cs ≠ some "" := by decide
  obtain ⟨-, hfiles, hidem⟩ := expandStatic_closure routes cs hmain
  obtain ⟨-, all, hall, -, hmem⟩ := hfiles "/a" ["main.js", "a.js", "a.js"] rfl
  have hfollows : Follows cs "a.js" "b.js" := mem_importsOf_iff.1 (by decide)
  have hb : "b.js" ∈ all :=
    (hmem "b.js").2 ⟨by decide, Or.inr ⟨"a.js", by simp, by decide, .single hfollows⟩⟩
  have hmissing : "main.js" ∉ all := fun h => ((hmem "main.js").1 h).1 rfl
  exact ⟨hmain, ⟨all, hall, hb, hmissing⟩, by decide +kernel, hidem⟩

/-- Selected files are those of chunks whose names are selected. -/
lemma mem_selected_iff (cs : List (Chunk α)) (patterns : List String) (x : FileName) :
    x ∈ selected cs patterns ↔ (∃ c ∈ cs, c.file = x) ∧ isSelected patterns x = true := by
  rw [selected, List.mem_filter, List.mem_map]

end RouteAssets.Chunk
