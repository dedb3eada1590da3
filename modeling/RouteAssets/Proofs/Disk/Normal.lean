import RouteAssets.Proofs.Disk.Tree

/-!
# Normalised paths lead to the same place

Parent names are taken out of a path by looking at its text alone. On a tree nothing is lost by
this: a path that leads to a file leads there without its parent names too
(`IsTree.locate_normalize`). Of the names that are left each could be followed before, and the text
only gets shorter (`byteCount_toString_normalize_le`), so that no limit is met.
-/

namespace RouteAssets

open RouteAssets.Text

/-! ## What is left of a path -/

namespace Path

/-- Folding only leaves names out. -/
lemma sublist_foldl_foldName (absolute : Bool) (ns acc : List String) :
    (ns.foldl (foldName absolute) acc).reverse.Sublist (acc.reverse ++ ns) := by
  induction ns generalizing acc with
  | nil => simp
  | cons n ns ih =>
    have hstep : (foldName absolute acc n).reverse.Sublist (acc.reverse ++ [n]) := by
      unfold foldName
      split
      · split
        · split <;> simp
        · split <;> simp
      · simp
    have hsplit : acc.reverse ++ n :: ns = acc.reverse ++ [n] ++ ns := by simp
    rw [List.foldl_cons, hsplit]
    exact (ih _).trans (hstep.append_right ns)

/-- The names of a normalised path are some of its names. -/
lemma sublist_normalize (p : Path) : p.normalize.names.Sublist p.names :=
  sublist_foldl_foldName p.isAbsolute p.names []

end Path

namespace Disk

/-! ## Lengths -/

/-- The bytes of a text behind another. -/
lemma byteCount_append (s t : String) : byteCount (s ++ t) = byteCount s + byteCount t := by
  simp [byteCount, writeUtf8]

/-- The bytes of a name in front of others, with slashes between them. -/
lemma byteCount_joinWith_cons (n : String) (ns : List String) :
    byteCount (joinWith "/" (n :: ns)) =
      byteCount n + if ns = [] then 0 else byteCount (joinWith "/" ns) + 1 := by
  rcases ns with _ | ⟨m, ms⟩
  · rfl
  · have hslash : byteCount "/" = 1 := rfl
    have hjoin : joinWith "/" (n :: m :: ms) = n ++ "/" ++ joinWith "/" (m :: ms) := rfl
    rw [hjoin, byteCount_append, byteCount_append, hslash, if_neg (List.cons_ne_nil m ms)]
    omega

/-- Some of the names have fewer bytes with slashes between them. -/
lemma byteCount_joinWith_le {ns ms : List String} (h : ns.Sublist ms) :
    byteCount (joinWith "/" ns) ≤ byteCount (joinWith "/" ms) := by
  induction h with
  | slnil => exact Nat.le_refl _
  | @cons ns ms n h ih =>
    rw [byteCount_joinWith_cons]
    split
    · rename_i hms
      rw [hms, List.sublist_nil] at h
      rw [h]
      exact Nat.zero_le _
    · omega
  | @cons_cons ns ms n h ih =>
    rw [byteCount_joinWith_cons, byteCount_joinWith_cons]
    split
    · omega
    · rename_i hns
      have hms : ms ≠ [] := fun hms => hns (List.sublist_nil.1 (hms ▸ h))
      rw [if_neg hms]
      omega

/-- The text of an absolute path does not get longer when the path is normalised. -/
lemma byteCount_toString_normalize_le {p : Path} (hp : p.isAbsolute = true) :
    byteCount p.normalize.toString ≤ byteCount p.toString := by
  have habsolute : (p.anchor == .relative) = false := by
    simpa [Path.isAbsolute] using hp
  have htext : ∀ q : Path, q.anchor = p.anchor →
      q.toString = Path.Anchor.text p.anchor ++ joinWith "/" q.names := by
    intro q hq
    simp [Path.toString, hq, habsolute]
  rw [htext p.normalize rfl, htext p rfl, byteCount_append, byteCount_append]
  exact Nat.add_le_add_left (byteCount_joinWith_le p.sublist_normalize) _

/-! ## Places -/

section Places

variable {d : Disk} {p : Path} {place : List String} {node : Node}

/-- Which texts of paths can be looked up. -/
lemma checkPath_eq_ok_iff : checkPath p = .ok () ↔
    (∀ n ∈ p.names, '\x00' ∉ n.toList) ∧ byteCount p.toString ≤ pathLimit := by
  unfold checkPath
  by_cases hnul : p.names.any (fun n => n.toList.contains '\x00') = true
  · rw [if_pos hnul]
    refine iff_of_false nofun fun h => ?_
    obtain ⟨n, hn, hmem⟩ := List.any_eq_true.1 hnul
    exact h.1 n hn (by simpa using hmem)
  · rw [if_neg hnul]
    have hfree : ∀ n ∈ p.names, '\x00' ∉ n.toList := by
      intro n hn hmem
      exact hnul (List.any_eq_true.2 ⟨n, hn, by simpa using hmem⟩)
    by_cases hlong : pathLimit < byteCount p.toString
    · rw [if_pos hlong]
      exact iff_of_false nofun fun h => absurd h.2 (Nat.not_le.2 hlong)
    · rw [if_neg hlong]
      exact iff_of_true rfl ⟨hfree, Nat.not_lt.1 hlong⟩

/-- The place of an absolute path on a tree: its names without parent names. -/
lemma IsTree.eq_names_normalize (h : d.IsTree) (hp : p.isAbsolute = true)
    (hplace : d.locate p = .ok place) : place = p.normalize.names := by
  rw [h.locate_eq hplace, resolve, Path.resolve_of_isAbsolute d.workingPath hp]

/-- On a tree an absolute path leads to the same place when it is normalised. -/
lemma IsTree.locate_normalize (h : d.IsTree) (hp : p.isAbsolute = true)
    (hplace : d.locate p = .ok place) (hnode : d.node? place = some node) :
    d.locate p.normalize = .ok place := by
  obtain ⟨hcheck, hfollow⟩ := locate_eq_ok_iff.1 hplace
  obtain ⟨hnul, hshort⟩ := checkPath_eq_ok_iff.1 hcheck
  have hsub : ∀ n ∈ p.normalize.names, n ∈ p.names := fun n hn => p.sublist_normalize.subset hn
  have hparent := Path.not_mem_normalize hp
  have hfits := Nat.le_trans (byteCount_toString_normalize_le hp) hshort
  refine locate_eq_ok_iff.2 ⟨checkPath_eq_ok_iff.2 ⟨fun n hn => hnul n (hsub n hn), hfits⟩, ?_⟩
  have hstart : d.startOf p.normalize = [] := if_pos hp
  rw [hstart, h.eq_names_normalize hp hplace]
  rw [h.eq_names_normalize hp hplace] at hnode
  -- the names that are left have been followed before, so that none of them is too long
  refine h.follow_of_node hnode hparent fun n hn => ?_
  exact byteCount_le_of_follow hfollow n (hsub n hn) fun he => hparent (he ▸ hn)

end Places

end Disk

end RouteAssets
