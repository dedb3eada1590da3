import RouteAssets.Disk.Change
import RouteAssets.Proofs.Disk.Tree
import RouteAssets.Proofs.Outcome

/-!
# What is written is read

A file that has been written is read back through the same path, on every disk, be it a tree or not:
writing changes one place, and no path passes through this place on its way, since a file is
written where there is no directory.

* **Following** (`follow_put`): names that can be followed still can when a file is put somewhere.
* **Writing** (`locate_of_locateNew`): the path leads to the place of the file.
* **Reading** (`readBytes_of_writeBytes`, `readText_of_writeText`): the file is read back, its text
  as it was written if there are no carriage returns in it.
-/

namespace RouteAssets

open RouteAssets.Text

/-- Without carriage returns line ends are unified already. -/
lemma Text.unifyLines_of_not_mem {cs : List Char} (h : '\r' ∉ cs) : unifyLines cs = cs := by
  induction cs with
  | nil => rfl
  | cons c cs ih =>
    rw [List.mem_cons, not_or] at h
    have hc : c ≠ '\r' := Ne.symm h.1
    simp [unifyLines, hc, ih h.2]

namespace Disk

variable {d d' : Disk} {p : Path} {place : List String} {bytes : List UInt8}

/-- What is at a place after something was put somewhere. The root stays what it is. -/
lemma node?_put (d : Disk) (place q : List String) (node : Node) :
    (d.put place node).node? q = if place = q ∧ q ≠ [] then some node else d.node? q := by
  unfold put node?
  by_cases hq : q = []
  · simp [hq]
  · simp [hq, Table.get?_insert]

/-- Names that can be followed still can when a file is put where there is no directory. -/
lemma follow_put {start ns q : List String} (hplace : d.node? place ≠ some .directory)
    (h : d.follow start ns = .ok q) : (d.put place (.file bytes)).follow start ns = .ok q := by
  induction ns generalizing start with
  | nil => exact h
  | cons n ns ih =>
    obtain ⟨hdirectory, hrest⟩ := follow_cons_eq_ok_iff.1 h
    have hne : place ≠ start := by
      rintro rfl
      exact hplace hdirectory
    refine follow_cons_eq_ok_iff.2 ⟨by rw [node?_put, if_neg (by simp [hne])]; exact hdirectory, ?_⟩
    rcases hrest with ⟨hn, hrest⟩ | ⟨hn, hshort, hthere, hrest⟩
    · exact Or.inl ⟨hn, ih hrest⟩
    · refine Or.inr ⟨hn, hshort, ?_, ih hrest⟩
      rw [node?_put]
      split
      · rfl
      · exact hthere

/-- The path of a file that is put at its place leads there. -/
lemma locate_of_locateNew (h : d.locateNew p = .ok place)
    (hplace : d.node? place ≠ some .directory) :
    (d.put place (.file bytes)).locate p = .ok place := by
  have hstart : (d.put place (.file bytes)).startOf p = d.startOf p := rfl
  have hthere : d.locate p = .ok place → (d.put place (.file bytes)).locate p = .ok place := by
    intro hlocate
    obtain ⟨hcheck, hfollow⟩ := locate_eq_ok_iff.1 hlocate
    exact locate_eq_ok_iff.2 ⟨hcheck, hstart ▸ follow_put hplace hfollow⟩
  unfold locateNew at h
  split at h
  · exact hthere h
  · exact hthere h
  · rename_i n hparent hlast
    have hnames : p.names = p.names.dropLast ++ [n] :=
      (List.dropLast_append_getLast? n hlast).symm
    have hn : n ≠ ".." := hparent
    cases hcheck : checkPath p with
    | error e => simp [hcheck, bind, Except.bind] at h
    | ok u =>
      cases hfollow : d.follow (d.startOf p) p.names.dropLast with
      | error e => simp [hcheck, hfollow, bind, Except.bind] at h
      | ok q =>
        rcases hq : d.node? q with _ | _ | _
        · simp [hcheck, hfollow, hq, bind, Except.bind] at h
        · by_cases hlong : nameLimit < byteCount n
          · simp [hcheck, hfollow, hq, hlong, bind, Except.bind] at h
          · obtain rfl : q ++ [n] = place := by
              simpa [hcheck, hfollow, hq, hlong, bind, Except.bind, pure, Except.pure] using h
            refine locate_eq_ok_iff.2 ⟨hcheck, ?_⟩
            rw [hstart, hnames, follow_append [n] (follow_put hplace hfollow)]
            refine follow_cons_eq_ok_iff.2 ⟨?_, Or.inr ⟨hn, Nat.not_lt.1 hlong, ?_, rfl⟩⟩
            · rw [node?_put, if_neg (by simp)]
              exact hq
            · rw [node?_put, if_pos (by simp)]
              rfl
        · simp [hcheck, hfollow, hq, bind, Except.bind] at h

/-- Asking the disk is no change of it. -/
lemma run_get_bind {α : Type} (next : Disk → DiskChange α) (d : Disk) :
    (get >>= next : DiskChange α).run d = (next d).run d :=
  run_bind_ok rfl

/-- A question that is put to the disk has its answer. -/
lemma run_lift_bind {α β : Type} (answer : Except DiskError α) (next : α → DiskChange β)
    (d : Disk) :
    ((liftM answer : DiskChange α) >>= next).run d =
      match answer with
      | .ok a => (next a).run d
      | .error e => (.error e, d) := by
  cases answer <;> exact run_bind _ _ _

/-- What writing a file comes to. -/
lemma run_writeBytes (p : Path) (bytes : List UInt8) (d : Disk) :
    (writeBytes p bytes).run d =
      match d.locateNew p with
      | .ok place =>
        if d.node? place = some .directory then (.error .isDirectory, d)
        else (.ok (), d.put place (.file bytes))
      | .error e => (.error e, d) := by
  unfold writeBytes
  rw [run_get_bind, run_lift_bind]
  cases d.locateNew p with
  | error e => rfl
  | ok place => rcases hnode : d.node? place with _ | _ | _ <;> simp only [hnode] <;> rfl

/-- A file that was written has been put where its path leads, and there is no directory there. -/
lemma exists_put_of_writeBytes (h : (writeBytes p bytes).run d = (.ok (), d')) :
    ∃ place, d.locateNew p = .ok place ∧ d.node? place ≠ some .directory ∧
      d' = d.put place (.file bytes) := by
  rw [run_writeBytes] at h
  split at h
  · rename_i place hplace
    split at h
    · cases h
    · rename_i hnode
      exact ⟨place, hplace, hnode, (Prod.mk.inj h).2.symm⟩
  · cases h

/-- The bytes of a file that was written are read back. -/
lemma readBytes_of_writeBytes (h : (writeBytes p bytes).run d = (.ok (), d')) :
    d'.readBytes p = .ok bytes := by
  obtain ⟨place, hplace, hnode, rfl⟩ := exists_put_of_writeBytes h
  refine readBytes_eq_ok_iff.2 ⟨place, locate_of_locateNew hplace hnode, ?_⟩
  have hroot : place ≠ [] := by
    rintro rfl
    exact hnode rfl
  rw [bytesAt?_eq_some_iff, node?_put, if_pos ⟨rfl, hroot⟩]

/-- The text of a file that was written is read back, if it has no carriage returns. -/
lemma readText_of_writeText {text : String} (h : (writeText p text).run d = (.ok (), d'))
    (htext : '\r' ∉ text.toList) : d'.readText p = .ok text := by
  simp only [readText, readBytes_of_writeBytes h, readUtf8_writeUtf8, unifyLines_of_not_mem htext,
    String.ofList_toList]

end Disk

end RouteAssets
