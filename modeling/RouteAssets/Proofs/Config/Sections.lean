import RouteAssets.Command.Session
import RouteAssets.Proofs.Config.Loading
import RouteAssets.Proofs.Config.Merging
import RouteAssets.Proofs.Outcome

/-!
# Sections of a loaded configuration

A build and the command look their settings up in the sections of a configuration, so a section has to
be there as a mapping (`HasSection`), and it is **usable** if every name of the standard section is
found in it as well (`IsUsable`).

The standard sections are usable. A user may write a setting of any kind where a section stands, and
only a mapping is merged into it: a loaded section is usable exactly if the user has a mapping there,
or nothing (`hasSection_merge_iff`, `isUsable_merge_iff`). A section that is not usable, an empty one
for instance, leaves every build without options, and the arguments of the command cannot be written
into it (`sections_usable_iff`).
-/

namespace RouteAssets.Config

open RouteAssets.Setting RouteAssets.Command RouteAssets.Command.Session

/-! ## Usable sections -/

/-- The sections of a configuration. -/
def sectionNames : List String := ["general", "resolve", "route_deps", "output"]

/-- Is a section there as a mapping? -/
def HasSection (c : Config) (name : String) : Prop := ∃ es, lookup (.text name) c = some (.mapping es)

/-- Is there anything where a section stands, and is it a mapping? -/
def shape? (c : Config) (name : String) : Option Bool :=
  (lookup (.text name) c).map (· matches .mapping _)

/-- Is a section usable? It is a mapping in which every name of the standard section is found. -/
def IsUsable (c : Config) (name : String) : Prop :=
  ∃ es, lookup (.text name) c = some (.mapping es) ∧
    ∀ ds, lookup (.text name) standard = some (.mapping ds) → ∀ e ∈ ds, (lookup e.1 es).isSome

/-- What a build may be given of a configuration: itself, or what it is with the arguments of the
command written over it. -/
inductive IsHandedOn (d : Disk) (c : Config) : Config → Prop
  | loaded : IsHandedOn d c c
  | command {a : Arguments} {c' : Config} (h : withArguments d a c = .ok c') : IsHandedOn d c c'

section Merged

variable {us : Entries} {name : String}

/-- All sections of the standard configuration are mappings. -/
lemma hasSection_standard (h : name ∈ sectionNames) : HasSection standard name := by
  revert name
  simp only [sectionNames, List.forall_mem_cons, List.not_mem_nil, IsEmpty.forall_iff, implies_true,
    and_true]
  exact ⟨⟨_, rfl⟩, ⟨_, rfl⟩, ⟨_, rfl⟩, ⟨_, rfl⟩⟩

/-- A section with settings of a user written over it. -/
lemma lookup_merge_section {ds : Entries} (hus : AreDistinct us)
    (hds : lookup (.text name) standard = some (.mapping ds)) :
    lookup (.text name) (merge standard us) =
      match lookup (.text name) us with
      | some (.mapping es) => some (.mapping (mergeEntries [.text name] ds es))
      | some s => some s
      | none => some (.mapping ds) := by
  have hplain : isReplaced [.text name] = false := by simp [isReplaced]
  rw [merge, lookup_mergeEntries hus, hds]
  cases lookup (.text name) us with
  | none => rfl
  | some s =>
    cases s with
    | scalar _ => rfl
    | list _ => rfl
    | mapping es => simp [mergeValue, hplain]

/-- A section is still a mapping exactly if the user has a mapping there, or nothing. -/
lemma hasSection_merge_iff (hus : IsWellFormed (.mapping us)) (hname : name ∈ sectionNames) :
    HasSection (merge standard us) name ↔
      ∀ s, lookup (.text name) us = some s → ∃ es, s = .mapping es := by
  obtain ⟨ds, hds⟩ := hasSection_standard hname
  rw [HasSection, lookup_merge_section hus.areDistinct hds]
  cases lookup (.text name) us with
  | none => simp
  | some s => cases s <;> simp

/-- There is something wherever a section stands. -/
lemma isSome_shape?_merge (hus : AreDistinct us) (hname : name ∈ sectionNames) :
    (shape? (merge standard us) name).isSome := by
  obtain ⟨ds, hds⟩ := hasSection_standard hname
  rw [shape?, lookup_merge_section hus hds]
  cases lookup (.text name) us with
  | none => rfl
  | some s => cases s <;> rfl

/-- A section that is still a mapping has kept its names. -/
lemma isUsable_merge_iff (hus : IsWellFormed (.mapping us)) :
    IsUsable (merge standard us) name ↔ HasSection (merge standard us) name := by
  refine ⟨fun ⟨es, hes, _⟩ => ⟨es, hes⟩, fun ⟨ms, hms⟩ => ⟨ms, hms, fun ds hds e he => ?_⟩⟩
  obtain ⟨n, hn, -⟩ := mem_of_lookup hds
  have hdefault := lookup_of_mem (isWellFormed_standard.of_mem hn).areDistinct he
  rw [lookup_merge_section hus.areDistinct hds] at hms
  cases huser : lookup (.text name) us with
  | none =>
    rw [huser] at hms
    cases hms
    rw [hdefault]
    rfl
  | some s =>
    rw [huser] at hms
    cases s with
    | scalar _ => cases hms
    | list _ => cases hms
    | mapping es =>
      cases hms
      obtain ⟨m, hm, -⟩ := mem_of_lookup huser
      rw [lookup_mergeEntries (hus.of_mem hm).areDistinct, hdefault]
      cases lookup e.1 es <;> rfl

end Merged

/-! ## What is done with sections -/

section Handing

variable {d : Disk} {a : Arguments} {c c' : Config} {name part : String}
  {working root : Path} {o : Options}

/-- A section is there as a mapping if its shape says so. -/
lemma hasSection_iff_shape? : HasSection c name ↔ shape? c name = some true := by
  rw [HasSection, shape?]
  cases lookup (.text name) c with
  | none => simp
  | some s => cases s <;> simp

/-- A section can be read unless something else than a mapping stands there. -/
lemma section?_answers_iff : (∃ es, section? c name = .ok es) ↔ shape? c name ≠ some false := by
  rw [section?, shape?]
  cases lookup (.text name) c with
  | none => simp
  | some s => cases s <;> simp [entries]

/-- The options of a build need every section. -/
lemma section?_of_ofConfig (h : Options.ofConfig working root c = .ok o)
    (hname : name ∈ sectionNames) : ∃ es, section? c name = .ok es := by
  rw [Options.ofConfig] at h
  obtain ⟨general, hgeneral, h⟩ := bind_eq_ok_iff.1 h
  obtain ⟨resolve, hresolve, h⟩ := bind_eq_ok_iff.1 h
  obtain ⟨_, -, h⟩ := bind_eq_ok_iff.1 h
  obtain ⟨routes, hroutes, h⟩ := bind_eq_ok_iff.1 h
  obtain ⟨_, -, h⟩ := bind_eq_ok_iff.1 h
  obtain ⟨_, -, h⟩ := bind_eq_ok_iff.1 h
  extract_lets rest at h
  have hrest : ∃ files, rest files = .ok o := by
    split at h <;> obtain ⟨files, -, h⟩ := bind_eq_ok_iff.1 h <;> exact ⟨files, h⟩
  obtain ⟨_, hrest⟩ := hrest
  obtain ⟨output, houtput, -⟩ := bind_eq_ok_iff.1 hrest
  revert name
  simp only [sectionNames, List.forall_mem_cons, List.not_mem_nil, IsEmpty.forall_iff, implies_true,
    and_true]
  exact ⟨⟨_, hgeneral⟩, ⟨_, hresolve⟩, ⟨_, hroutes⟩, ⟨_, houtput⟩⟩

/-- A setting can be written into a part that is a mapping. -/
lemma withSetting_answers_iff {n : String} {s : Setting} :
    (∃ c', withSetting part n s c = .ok c') ↔ HasSection c part := by
  rw [HasSection, withSetting]
  cases lookup (.text part) c with
  | none => simp
  | some t => cases t <;> simp

/-- Writing a setting keeps the shapes of all sections. -/
lemma shape?_withSetting {n : String} {s : Setting} (h : withSetting part n s c = .ok c')
    (name : String) : shape? c' name = shape? c name := by
  obtain ⟨es, hes⟩ := withSetting_answers_iff.1 ⟨c', h⟩
  have hone : AreDistinct [(Scalar.text part, Setting.named [(n, s)])] := List.pairwise_singleton _ _
  simp only [withSetting, hes, Except.ok.injEq] at h
  rw [← h, shape?, shape?, merge, lookup_mergeEntries hone, lookup]
  by_cases hpart : part = name
  · subst hpart
    simp only [Scalar.same_refl, if_true, hes, named, mergeValue]
    split <;> rfl
  · have hother : (Scalar.text part).same (.text name) = false :=
      Bool.eq_false_iff.2 fun h => hpart (Scalar.text.inj (Scalar.same_text_iff.1 h))
    simp only [hother, lookup, Bool.false_eq_true, if_false]

/-- A path can be written into a part that is a mapping. -/
lemma withPath_answers_iff {n : String} {path : Option String} :
    (∃ c', withPath d part n path c = .ok c') ↔ (path.isSome = true → HasSection c part) := by
  cases path with
  | none => exact iff_of_true ⟨c, rfl⟩ (by simp)
  | some path => exact withSetting_answers_iff.trans (by simp)

/-- Writing a path keeps the shapes of all sections. -/
lemma shape?_withPath {n : String} {path : Option String} (h : withPath d part n path c = .ok c')
    (name : String) : shape? c' name = shape? c name := by
  cases path with
  | none => rw [← Except.ok.inj h]
  | some path => exact shape?_withSetting h name

/-- Writing arguments keeps the shapes of all sections. -/
lemma shape?_withArguments (h : withArguments d a c = .ok c') (name : String) :
    shape? c' name = shape? c name := by
  rw [withArguments] at h
  obtain ⟨c₁, h₁, h⟩ := bind_eq_ok_iff.1 h
  rw [← shape?_withPath h₁ name]
  split at h
  all_goals
    obtain ⟨c₂, h₂, h⟩ := bind_eq_ok_iff.1 h
    obtain ⟨c₃, h₃, h⟩ := bind_eq_ok_iff.1 h
    rw [shape?_withPath h, shape?_withPath h₃]
  · exact shape?_withSetting h₂ name
  · rw [Except.ok.inj h₂]

/-- A build is given the sections that have been loaded. -/
lemma IsHandedOn.shape? (h : IsHandedOn d c c') (name : String) : shape? c' name = shape? c name := by
  cases h with
  | loaded => rfl
  | command h => exact shape?_withArguments h name

/-- Paths can be written into the output section exactly if it is a mapping or there are none. -/
lemma withPaths_answer_iff {n m : String} {p q : Option String} :
    (∃ c', (withPath d part n p c >>= withPath d part m q) = .ok c') ↔
      (p.isSome = true ∨ q.isSome = true → HasSection c part) := by
  have hsecond (x : Config) (hx : withPath d part n p c = .ok x) :
      (∃ y, withPath d part m q x = .ok y) ↔ (q.isSome = true → HasSection c part) := by
    rw [withPath_answers_iff, hasSection_iff_shape?, hasSection_iff_shape?, shape?_withPath hx]
  rw [bind_answers_iff hsecond, withPath_answers_iff, or_imp]

/-- Arguments can be written over a configuration exactly if the sections that they belong to are
mappings. -/
lemma withArguments_answers_iff :
    (∃ c', withArguments d a c = .ok c') ↔
      HasSection c "general" ∧
        (a.bundle.isSome = true ∨ a.outDirectory.isSome = true → HasSection c "output") := by
  have hpaths (x : Config) (hx : shape? x "output" = shape? c "output") :
      (∃ y, (withPath d "output" "bundle_description" a.bundle x >>=
        withPath d "output" "out_dir" a.outDirectory) = .ok y) ↔
        (a.bundle.isSome = true ∨ a.outDirectory.isSome = true → HasSection c "output") := by
    rw [withPaths_answer_iff, hasSection_iff_shape?, hasSection_iff_shape?, hx]
  have hgeneral : (∃ x, withPath d "general" "project_root" (some a.root) c = .ok x) ↔
      HasSection c "general" := withPath_answers_iff.trans (by simp)
  rw [withArguments, ← hgeneral]
  refine bind_answers_iff fun x hx => ?_
  have hroot := shape?_withPath hx
  dsimp only
  split
  · -- the section is the one that the root has just been written into
    have hx' : HasSection x "general" := by
      rw [hasSection_iff_shape?, hroot, ← hasSection_iff_shape?, ← hgeneral]
      exact ⟨x, hx⟩
    rw [bind_answers_iff fun y hy => hpaths y ((shape?_withSetting hy _).trans (hroot _)),
      withSetting_answers_iff, and_iff_right hx']
  · exact hpaths x (hroot _)

variable {asked : Option Path} {path : Path} {bytes : List UInt8} {us : Entries}

/-- **A section of a loaded configuration is usable exactly if the user has a mapping there, or
nothing.** The sections that are usable are those that builds can read; where one is not, no build has
options. The arguments of the command can be written over the configuration exactly if the sections
they belong to are usable: the general one always, and that of the output if they say anything about
it. -/
theorem sections_usable_iff (h : IsChosen d asked path) (hbytes : d.readBytes path = .ok bytes)
    (hdocument : document? bytes = some (.ok (.mapping us))) :
    ∃ l, load d asked = .ok l ∧
      (∀ name ∈ sectionNames,
        (IsUsable l.config name ↔ ∀ s, lookup (.text name) us = some s → ∃ es, s = .mapping es) ∧
        ∀ c, IsHandedOn d l.config c →
          ((∃ es, section? c name = .ok es) ↔ IsUsable l.config name) ∧
          (¬ IsUsable l.config name →
            ∀ root, ∃ m, Options.ofConfig d.workingPath root c = .error m)) ∧
      ∀ a, (∃ c, withArguments d a l.config = .ok c) ↔
        IsUsable l.config "general" ∧
          (a.bundle.isSome = true ∨ a.outDirectory.isSome = true → IsUsable l.config "output") := by
  have hus : IsWellFormed (.mapping us) := by
    obtain ⟨cs, -, hcs⟩ := Option.map_eq_some_iff.1 hdocument
    exact Yaml.isWellFormed_of_ofYaml hcs
  have hgeneral : "general" ∈ sectionNames := by decide
  have houtput : "output" ∈ sectionNames := by decide
  refine ⟨_, by rw [load_of_isChosen h, ofFile_eq hbytes, hdocument], ?_, ?_⟩
  all_goals rw [ofSetting]
  · intro name hname
    refine ⟨(isUsable_merge_iff hus).trans (hasSection_merge_iff hus hname), fun c hc => ?_⟩
    have hread : (∃ es, section? c name = .ok es) ↔ IsUsable (merge standard us) name := by
      rw [section?_answers_iff, hc.shape?, isUsable_merge_iff hus, hasSection_iff_shape?]
      obtain ⟨b, hb⟩ := Option.isSome_iff_exists.1 (isSome_shape?_merge hus.areDistinct hname)
      cases b <;> simp [hb]
    refine ⟨hread, fun hbroken root => ?_⟩
    cases hoptions : Options.ofConfig d.workingPath root c with
    | error m => exact ⟨m, rfl⟩
    | ok o => exact absurd (hread.1 (section?_of_ofConfig hoptions hname)) hbroken
  · intro a
    rw [withArguments_answers_iff, isUsable_merge_iff hus, isUsable_merge_iff hus]

/-- An empty section ends the command and every build. -/
theorem sections_usable_iff_of_empty :
    let bytes := Text.writeUtf8 "general:".toList
    let d : Disk :=
      { nodes := Table.ofList [(["route_deps.yaml"], .file bytes)], workingDirectory := [] }
    IsChosen d none (d.workingPath.joinText "route_deps.yaml") ∧
    d.readBytes (d.workingPath.joinText "route_deps.yaml") = .ok bytes ∧
    (∃ us, document? bytes = some (.ok (.mapping us)) ∧ shape? us "general" = some false) ∧
    ∃ l, load d none = .ok l ∧ ¬ IsUsable l.config "general" ∧ IsUsable l.config "output" ∧
      (∀ root, ∃ m, Options.ofConfig d.workingPath root l.config = .error m) ∧
      ∀ a, ¬ ∃ c, withArguments d a l.config = .ok c := by
  intro bytes d
  have hnames : usualNames = [] ++ "route_deps.yaml" :: ["route_deps.yml"] := rfl
  have hchosen : IsChosen d none (d.workingPath.joinText "route_deps.yaml") :=
    .usual hnames (by simp) (by decide +kernel)
  have hbytes : d.readBytes (d.workingPath.joinText "route_deps.yaml") = .ok bytes := by
    decide +kernel
  have hread : (((document? bytes).bind Except.toOption).bind fun s => s.entries.toOption).map
      (fun us => (shape? us "general", shape? us "output")) = some (some false, none) := by
    decide +kernel
  obtain ⟨us, hus, hshapes⟩ := Option.map_eq_some_iff.1 hread
  obtain ⟨hempty, hnothing⟩ := Prod.mk.inj hshapes
  have hdocument : document? bytes = some (.ok (.mapping us)) := by
    obtain ⟨s, hs, hentries⟩ := Option.bind_eq_some_iff.1 hus
    obtain ⟨r, hr, hok⟩ := Option.bind_eq_some_iff.1 hs
    cases r with
    | error f => cases hok
    | ok s' =>
      cases hok
      cases s with
      | scalar _ => cases hentries
      | list _ => cases hentries
      | mapping es =>
        cases hentries
        exact hr
  obtain ⟨l, hl, hsections, harguments⟩ := sections_usable_iff hchosen hbytes hdocument
  obtain ⟨hgeneral, hhanded⟩ := hsections "general" (by decide)
  obtain ⟨houtput, -⟩ := hsections "output" (by decide)
  have hbroken : ¬ IsUsable l.config "general" := by
    rw [hgeneral]
    intro hmapping
    obtain ⟨s, hs, hshape⟩ := Option.map_eq_some_iff.1 hempty
    obtain ⟨es, rfl⟩ := hmapping s hs
    cases hshape
  refine ⟨hchosen, hbytes, ⟨us, hdocument, hempty⟩, l, hl, hbroken, houtput.2 fun s hs => ?_,
    (hhanded _ .loaded).2 hbroken, fun a ha => hbroken ((harguments a).1 ha).1⟩
  rw [Option.map_eq_none_iff.1 hnothing] at hs
  cases hs

end Handing

end RouteAssets.Config
