import RouteAssets.Chunk.Manifest
import RouteAssets.Module.Lookup
import RouteAssets.Proofs.Chunk.Placement
import RouteAssets.Proofs.Path

/-!
# Who names a module how

A file gets its identifier from four sides: where it is read, the file is resolved; where a
specifier leads to it, its path is normalised (`moduleAt`); and where a bundle or a listing of
usages names it, what they write is put below the project root as it is written (`describedModule`).

* **Look-ups** (`exists_moduleAt_of_find`, `moduleAt_eq_resolve_iff`): what is found is a normalised
  path, and the one of the module that is read unless it has two slashes at the front.
* **Descriptions** (`describedModule_eq_resolve_iff`, `describedModule_eq_moduleAt_iff`): the names
  agree with these only where there is nothing to be taken away.
* **Both together** (`describedModule_canonical_iff`), for a source outside the project root
  (`describedModule_canonical_iff_of_outside`).
-/

namespace RouteAssets

open RouteAssets.Lookup

/-- The file that a bundle or a listing means by a name, given the project root. A query is no part
of the name. -/
def describedFile (root : Path) (name : String) : Path := root.under (ModuleId.withoutQuery name)

/-- A name in which there is nothing to be taken away: no two slashes at the front, and no parent
names. -/
def IsPlainName (name : String) : Prop :=
  (Path.ofString (ModuleId.withoutQuery name)).anchor ≠ .doubleRoot ∧
    ".." ∉ (Path.ofString (ModuleId.withoutQuery name)).names

instance (name : String) : Decidable (IsPlainName name) := inferInstanceAs (Decidable (_ ∧ _))

/-! ## Look-ups -/

section Lookups

/-- A module that is found is named by the normalised path of what has been found. -/
lemma exists_moduleAt_of_find {r : Rules} {d : Disk} {specifier : String} {directory : Path}
    {m : ModuleId} (h : r.find d specifier directory = .ok (some m)) : ∃ p, m = moduleAt p := by
  have hok : ∀ p : Path, (Except.ok (some (moduleAt p)) : Except Lookup.Error _) = .ok (some m) →
      ∃ p, m = moduleAt p :=
    fun p hp => ⟨p, (Option.some.inj (Except.ok.inj hp)).symm⟩
  unfold Rules.find at h
  dsimp only at h
  split at h
  · exact absurd (Except.ok.inj h) nofun
  · rcases hprobe : r.probeAll d (r.bases (bare specifier) directory) with e | _ | p
    · rw [hprobe] at h
      exact nomatch h
    · rcases hpackage : r.package d (bare specifier) with e | _ | p
      · rw [hprobe, hpackage] at h
        exact nomatch h
      · rw [hprobe, hpackage] at h
        exact nomatch h
      · rw [hprobe, hpackage] at h
        exact hok p h
    · rw [hprobe] at h
      exact hok p h

/-- A path that is written and absolute is so when it has been resolved. -/
lemma isWritten_resolve (d : Disk) {p : Path} (hp : p.isAbsolute = true) (hw : p.IsWritten) :
    (d.resolve p).IsWritten := by
  unfold Disk.resolve
  rw [Path.resolve_of_isAbsolute d.workingPath hp]
  exact hw.normalize

/-- The module that is found at a path from the root is the one that is read there. -/
lemma moduleAt_eq_resolve (d : Disk) {p : Path} (hp : p.anchor = .root) :
    moduleAt p = (d.resolve p).toString := by
  have habsolute := Path.isAbsolute_of_anchor_eq hp
  unfold moduleAt Disk.resolve
  rw [Path.resolve_of_isAbsolute d.workingPath habsolute]
  obtain ⟨anchor, names⟩ := p
  cases hp
  rfl

/-- The module that is found at an absolute path is the one that is read there just if the path does
not have two slashes at the front. -/
lemma moduleAt_eq_resolve_iff (d : Disk) {p : Path} (hp : p.isAbsolute = true) (hw : p.IsWritten) :
    moduleAt p = (d.resolve p).toString ↔ p.anchor = .root := by
  refine ⟨fun h => ?_, moduleAt_eq_resolve d⟩
  have hresolved := isWritten_resolve d hp hw
  exact congrArg Path.anchor (Path.toString_inj hw.normalize hresolved h)

end Lookups

/-! ## Descriptions -/

section Descriptions

variable {d : Disk} {root : Path} (name : String)

/-- What a name under a canonical root means is a written absolute path, and as its text tells. -/
lemma describedFile_spec (hroot : root.IsCanonical) :
    (describedFile root name).isAbsolute = true ∧ (describedFile root name).IsWritten ∧
      ((describedFile root name).anchor = .root ↔
        (Path.ofString (ModuleId.withoutQuery name)).anchor ≠ .doubleRoot) ∧
      (".." ∈ (describedFile root name).names ↔
        ".." ∈ (Path.ofString (ModuleId.withoutQuery name)).names) := by
  have habsolute := Path.isAbsolute_of_anchor_eq hroot.anchor_eq
  have hwritten := Path.isWritten_ofString (ModuleId.withoutQuery name)
  refine ⟨Path.isAbsolute_join habsolute, hroot.isWritten.join hwritten, ?_⟩
  unfold describedFile Path.under Path.join
  generalize Path.ofString (ModuleId.withoutQuery name) = q
  split
  · rename_i hq
    refine ⟨?_, Iff.rfl⟩
    obtain ⟨anchor, names⟩ := q
    cases anchor <;> simp_all [Path.isAbsolute]
  · rename_i hq
    have hrelative : q.anchor = .relative := by
      obtain ⟨anchor, names⟩ := q
      cases anchor <;> simp_all [Path.isAbsolute]
    simp [hrelative, hroot.anchor_eq, hroot.not_mem_names]

/-- A described module is the one that is read in its file exactly for a plain name. -/
lemma describedModule_eq_resolve_iff (d : Disk) (hroot : root.IsCanonical) :
    Chunk.describedModule root name = (d.resolve (describedFile root name)).toString ↔
      IsPlainName name := by
  obtain ⟨habsolute, hwritten, hanchor, hparent⟩ := describedFile_spec name hroot
  have hresolved := isWritten_resolve d habsolute hwritten
  calc Chunk.describedModule root name = (d.resolve (describedFile root name)).toString
      ↔ d.resolve (describedFile root name) = describedFile root name :=
        ⟨fun h => (Path.toString_inj hwritten hresolved h).symm, fun h => by rw [h]; rfl⟩
    _ ↔ (describedFile root name).anchor = .root ∧ ".." ∉ (describedFile root name).names :=
        Path.resolve_eq_self_iff d.workingPath habsolute
    _ ↔ IsPlainName name := by rw [hanchor, hparent]; rfl

/-- A described module is the one that a specifier leads to exactly for a name without parent
names. -/
lemma describedModule_eq_moduleAt_iff (hroot : root.IsCanonical) :
    Chunk.describedModule root name = moduleAt (describedFile root name) ↔
      ".." ∉ (Path.ofString (ModuleId.withoutQuery name)).names := by
  obtain ⟨habsolute, hwritten, -, hparent⟩ := describedFile_spec name hroot
  calc Chunk.describedModule root name = moduleAt (describedFile root name)
      ↔ (describedFile root name).normalize = describedFile root name :=
        ⟨fun h => (Path.toString_inj hwritten hwritten.normalize h).symm,
          fun h => by rw [moduleAt, h]; rfl⟩
    _ ↔ ".." ∉ (describedFile root name).names := Path.normalize_eq_self_iff habsolute
    _ ↔ ".." ∉ (Path.ofString (ModuleId.withoutQuery name)).names := by rw [hparent]

end Descriptions

/-! ## One name for one module -/

/-- A module that a chunk lists has a chunk. -/
lemma exists_get?_chunkByModule {α : Type} {cs : List (Chunk α)} {m : ModuleId}
    (h : ∃ c ∈ cs, m ∈ c.modules) : ∃ file, (Chunk.chunkByModule cs).get? m = some file := by
  obtain ⟨c, hc⟩ := exists_isLast h
  exact ⟨c.file, (Chunk.get?_chunkByModule cs m c.file).2 ⟨c, hc, rfl⟩⟩

/-- **A description names a module as the build does exactly where its name is plain.** For every
project root and every name in a bundle or a listing, the identifier is that of the module that is
read in the file just if the name has neither two slashes at the front nor parent names, and that of
the module a specifier leads to just if it has no parent names. Only two slashes at the front tell
these two apart. So the chunk of a module that is found, at a path with one slash at its front, is
known where some chunk lists the file of that path by a plain name. -/
theorem describedModule_canonical_iff {d : Disk} (hd : d.workingPath.IsWritten)
    (project name : String) :
    let root := d.resolve (Path.ofString project)
    let file := describedFile root name
    (Chunk.describedModule root name = (d.resolve file).toString ↔ IsPlainName name) ∧
    (Chunk.describedModule root name = moduleAt file ↔
      ".." ∉ (Path.ofString (ModuleId.withoutQuery name)).names) ∧
    (moduleAt file = (d.resolve file).toString ↔
      (Path.ofString (ModuleId.withoutQuery name)).anchor ≠ .doubleRoot) ∧
    (IsPlainName name → ∀ (r : Rules) (specifier : String) (directory : Path) (m : ModuleId),
      r.find d specifier directory = .ok (some m) → ∃ p, m = moduleAt p ∧
        (p.anchor = .root → d.resolve p = d.resolve file →
          ∀ cs : List (Chunk Json), (∃ c ∈ cs, Chunk.describedModule root name ∈ c.modules) →
            ∃ chunk, (Chunk.chunkByModule cs).get? m = some chunk)) := by
  intro root file
  have hroot : root.IsCanonical := Path.isCanonical_resolve hd rfl (Path.isWritten_ofString project)
  obtain ⟨habsolute, hwritten, hanchor, -⟩ := describedFile_spec name hroot
  refine ⟨describedModule_eq_resolve_iff name d hroot, describedModule_eq_moduleAt_iff name hroot,
    (moduleAt_eq_resolve_iff d habsolute hwritten).trans hanchor, ?_⟩
  intro hplain r specifier directory m hm
  obtain ⟨p, rfl⟩ := exists_moduleAt_of_find hm
  refine ⟨p, rfl, fun hp hsame cs hlisted => ?_⟩
  have hmodule : moduleAt p = Chunk.describedModule root name := by
    calc moduleAt p = (d.resolve p).toString := moduleAt_eq_resolve d hp
      _ = (d.resolve file).toString := by rw [hsame]
      _ = Chunk.describedModule root name :=
        ((describedModule_eq_resolve_iff name d hroot).2 hplain).symm
  rw [hmodule]
  exact exists_get?_chunkByModule hlisted

/-- A source in the project, named with a query, has one identifier on all sides. A source outside
has another one where it is described. -/
theorem describedModule_canonical_iff_of_outside :
    let d : Disk := ⟨Table.empty, ["app"]⟩
    let root := d.resolve (Path.ofString ".")
    Chunk.describedModule root "src/a.vue?setup" =
        (d.resolve (describedFile root "src/a.vue?setup")).toString ∧
      Chunk.describedModule root "../lib/a.ts" ≠
        (d.resolve (describedFile root "../lib/a.ts")).toString ∧
      Chunk.describedModule root "../lib/a.ts" ≠ moduleAt (describedFile root "../lib/a.ts") := by
  intro d root
  have hd : d.workingPath.IsWritten := by
    intro n hn
    rw [List.mem_singleton.1 hn]
    decide
  obtain ⟨hinside, -⟩ := describedModule_canonical_iff hd "." "src/a.vue?setup"
  obtain ⟨houtside, hfound, -⟩ := describedModule_canonical_iff hd "." "../lib/a.ts"
  have hplain : IsPlainName "src/a.vue?setup" := by decide +kernel
  have hparent : ".." ∈ (Path.ofString (ModuleId.withoutQuery "../lib/a.ts")).names := by
    decide +kernel
  have hnotPlain : ¬ IsPlainName "../lib/a.ts" := fun h => h.2 hparent
  refine ⟨hinside.2 hplain, ?_, ?_⟩
  · exact mt houtside.1 hnotPlain
  · exact mt hfound.1 (not_not_intro hparent)

end RouteAssets
