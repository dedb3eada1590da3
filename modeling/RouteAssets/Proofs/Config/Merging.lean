import RouteAssets.Proofs.Config.Entries
import Mathlib.Data.List.Forall2
import Mathlib.Data.List.Induction

/-!
# Settings written over others

What a configuration holds when the settings of a user have been written over a base. A **place** is
the list of names that lead to a setting. The user **replaces** a place by a setting there that is not
merged (`IsReplacedAt`): it is no mapping, or the base has none, or the place is the one of the
aliases. Up to the first such place both have mappings, and these are merged.

* **One mapping** (`lookup_mergeEntries`): under each name of the user stands the setting of the user
  over that of the base, under every other name what the base has.
* **One place** (`at?_merge`): if no place on the way is replaced, the setting there is that of the
  user over that of the base. So everything is determined by the first place that is replaced, if
  there is one on the way (`at?_merge_of_isReplacedAt`), and by the place itself if there is none.
* **Writing again** (`mergeValue_self`, `mergeValue_mergeValue`): a setting over itself, and a setting
  that is written twice, change nothing. These are equalities of settings, with the names in their
  places and in their forms.

Places are compared by the values of their names, as mappings are; the place of the aliases is one of
texts and has one form only (`isReplaced_congr`).
-/

namespace RouteAssets.Setting

/-! ## Places -/

/-- The setting under a name, in a mapping. -/
def child? (s : Setting) (name : Scalar) : Option Setting :=
  match s with
  | .mapping es => lookup name es
  | _ => none

/-- The setting at a place. -/
def at? (s : Setting) (place : List Scalar) : Option Setting := place.foldlM child? s

/-- Is there a mapping at a place? -/
def IsMappingAt (s : Setting) (place : List Scalar) : Prop := ∃ es, s.at? place = some (.mapping es)

/-- The place of the aliases. -/
def aliasPlace : List Scalar := [.text "resolve", .text "aliases"]

/-- Does a user replace what a base has at a place? The user has a setting there, which is no mapping
or stands where the base has none or where the aliases stand. -/
def IsReplacedAt (b u : Setting) (place : List Scalar) : Prop :=
  ∃ s, u.at? place = some s ∧
    ((∀ es, s ≠ .mapping es) ∨ ¬ b.IsMappingAt place ∨ place = aliasPlace)

/-- Is a place replaced and none of those that lead to it? -/
def IsFirstReplacedAt (b u : Setting) (place : List Scalar) : Prop :=
  IsReplacedAt b u place ∧ ∀ before, before <+: place → before ≠ place → ¬ IsReplacedAt b u before

/-- Is no place replaced on the way to a place, and neither the place itself? -/
def IsMergedAlong (b u : Setting) (place : List Scalar) : Prop :=
  ∀ before, before <+: place → ¬ IsReplacedAt b u before

/-- Settings `m` are those of a user `u` written over a base `b`. -/
structure IsWrittenOver (b u m : Setting) : Prop where
  /-- No name of a mapping occurs twice, so that places say everything. -/
  wellFormed : IsWellFormed m
  /-- Where the user replaces first, the setting is that of the user. -/
  replaced : ∀ place, IsFirstReplacedAt b u place → m.at? place = u.at? place
  /-- Where the user says nothing, the setting is that of the base. -/
  kept : ∀ place s, IsMergedAlong b u place → b.at? place = some s → u.at? place = none →
    m.at? place = some s
  /-- Where both have mappings, there is a mapping. -/
  joined : ∀ place, IsMergedAlong b u place → b.IsMappingAt place → u.IsMappingAt place →
    m.IsMappingAt place
  /-- There are no other places, but for those behind a place that is replaced. -/
  only : ∀ place, (m.at? place).isSome →
    (∃ first, first <+: place ∧ IsFirstReplacedAt b u first) ∨
      IsMergedAlong b u place ∧
        ((b.at? place).isSome ∧ u.at? place = none ∨ b.IsMappingAt place ∧ u.IsMappingAt place)

section Places

variable {b u s : Setting} {place first : List Scalar}

@[simp] lemma at?_nil (s : Setting) : s.at? [] = some s := rfl

/-- The setting behind a name. -/
lemma at?_cons (s : Setting) (name : Scalar) (rest : List Scalar) :
    s.at? (name :: rest) = (s.child? name).bind (·.at? rest) := List.foldlM_cons

/-- The setting behind a place. -/
lemma at?_append (s : Setting) (place rest : List Scalar) :
    s.at? (place ++ rest) = (s.at? place).bind (·.at? rest) := List.foldlM_append

/-- The setting one name further. -/
lemma at?_concat (s : Setting) (place : List Scalar) (name : Scalar) :
    s.at? (place ++ [name]) = (s.at? place).bind (·.child? name) := by
  rw [at?_append]
  congr 1
  funext t
  rw [at?_cons]
  exact Option.bind_fun_some _

/-- What stands at a place of a well-formed setting is well-formed. -/
lemma IsWellFormed.at? {t : Setting} (h : IsWellFormed s) (ht : s.at? place = some t) :
    IsWellFormed t := by
  induction place generalizing s with
  | nil => exact Option.some.inj ht ▸ h
  | cons name rest ih =>
    rw [at?_cons, Option.bind_eq_some_iff] at ht
    obtain ⟨s', hs', ht⟩ := ht
    refine ih ?_ ht
    cases s with
    | scalar _ => cases hs'
    | list _ => cases hs'
    | mapping es =>
      obtain ⟨n, hn, -⟩ := mem_of_lookup hs'
      exact h.of_mem hn

/-- On the way to a setting there are mappings only. -/
lemma isMappingAt_of_isPrefix (hplace : (s.at? place).isSome) (hfirst : first <+: place)
    (hne : first ≠ place) : s.IsMappingAt first := by
  obtain ⟨rest, rfl⟩ := hfirst
  cases rest with
  | nil => simp at hne
  | cons name rest =>
    rw [at?_append] at hplace
    cases hs : s.at? first with
    | none => simp [hs] at hplace
    | some t =>
      rw [hs, Option.bind_some, at?_cons] at hplace
      cases t with
      | mapping es => exact ⟨es, hs⟩
      | scalar _ => simp [child?] at hplace
      | list _ => simp [child?] at hplace

/-- Of the places that are replaced on the way to a place, there is a first one. -/
lemma exists_isFirstReplacedAt (h : ∃ before, before <+: place ∧ IsReplacedAt b u before) :
    ∃ first, first <+: place ∧ IsFirstReplacedAt b u first := by
  induction place using List.reverseRecOn with
  | nil =>
    obtain ⟨before, hbefore, hreplaced⟩ := h
    rw [List.prefix_nil.1 hbefore] at hreplaced
    exact ⟨[], List.prefix_rfl, hreplaced, fun q hq hne => absurd (List.prefix_nil.1 hq) hne⟩
  | append_singleton place name ih =>
    by_cases hearlier : ∃ before, before <+: place ∧ IsReplacedAt b u before
    · obtain ⟨first, hfirst, hreplaced⟩ := ih hearlier
      exact ⟨first, hfirst.trans (List.prefix_append place [name]), hreplaced⟩
    · obtain ⟨before, hbefore, hreplaced⟩ := h
      rcases List.prefix_concat_iff.1 hbefore with rfl | hbefore
      · refine ⟨_, List.prefix_rfl, hreplaced, fun q hq hne hq' => hearlier ⟨q, ?_, hq'⟩⟩
        exact (List.prefix_concat_iff.1 hq).resolve_left hne
      · exact absurd ⟨before, hbefore, hreplaced⟩ hearlier

/-- A place is merged along the way, or some place on the way is the first to be replaced. -/
lemma isMergedAlong_or_exists (b u : Setting) (place : List Scalar) :
    IsMergedAlong b u place ∨ ∃ first, first <+: place ∧ IsFirstReplacedAt b u first := by
  by_cases h : ∃ before, before <+: place ∧ IsReplacedAt b u before
  · exact Or.inr (exists_isFirstReplacedAt h)
  · exact Or.inl fun before hbefore hreplaced => h ⟨before, hbefore, hreplaced⟩

end Places

/-! ## One mapping -/

section OneMapping

variable {p q : List Scalar}

/-- The place of the aliases has one form. -/
lemma eq_aliasPlace (h : List.Forall₂ (fun m n => m.same n = true) p aliasPlace) :
    p = aliasPlace := by
  cases h with
  | cons hresolve h =>
    cases h with
    | cons haliases h =>
      cases h
      rw [Scalar.same_text_iff] at hresolve haliases
      rw [hresolve, haliases]
      rfl

/-- Whether a mapping is replaced as a whole does not depend on the forms of names. -/
lemma isReplaced_congr (h : List.Forall₂ (fun m n => m.same n = true) p q) :
    isReplaced p = isReplaced q := by
  rw [Bool.eq_iff_iff]
  simp only [isReplaced, beq_iff_eq]
  constructor
  · rintro rfl
    exact eq_aliasPlace (h.flip.imp fun _ _ => Scalar.same_symm)
  · rintro rfl
    exact eq_aliasPlace h

mutual

/-- What becomes of a setting does not depend on the forms of the names that lead to it. -/
lemma mergeValue_congr {p q : List Scalar} (h : List.Forall₂ (fun m n => m.same n = true) p q)
    (base : Option Setting) : (s : Setting) → mergeValue p base s = mergeValue q base s
  | .scalar _ => rfl
  | .list _ => rfl
  | .mapping us => by
    cases base with
    | none => rfl
    | some b =>
      cases b with
      | scalar _ => rfl
      | list _ => rfl
      | mapping bs => rw [mergeValue, mergeValue, isReplaced_congr h, mergeEntries_congr h bs us]

/-- Nor does what becomes of the entries of a mapping. -/
lemma mergeEntries_congr {p q : List Scalar}
    (h : List.Forall₂ (fun m n => m.same n = true) p q) (bs : Entries) :
    (us : Entries) → mergeEntries p bs us = mergeEntries q bs us
  | [] => rfl
  | (name, s) :: us => by
    have hname : List.Forall₂ (fun m n => m.same n = true) [name] [name] :=
      .cons (Scalar.same_refl name) .nil
    rw [mergeEntries, mergeEntries, mergeValue_congr (List.rel_append h hname) _ s,
      mergeEntries_congr h _ us]

end

/-- **One mapping over another.** Under a name of the user stands the setting of the user over that of
the base, under every other name what the base has. -/
lemma lookup_mergeEntries {us : Entries} (hus : AreDistinct us) (bs : Entries) (k : Scalar) :
    lookup k (mergeEntries p bs us) =
      match lookup k us with
      | some s => some (mergeValue (p ++ [k]) (lookup k bs) s)
      | none => lookup k bs := by
  induction us generalizing bs with
  | nil => rfl
  | cons e us ih =>
    obtain ⟨n, s⟩ := e
    obtain ⟨hn, hus⟩ := List.pairwise_cons.1 hus
    rw [mergeEntries, ih hus, lookup_write, lookup]
    cases hk : n.same k with
    | false => rfl
    | true =>
      -- no later entry has this name, so what has been written stays
      have hlater : lookup k us = none :=
        lookup_eq_none_iff.2 fun e he => by
          rw [← Scalar.same_congr_right hk, Scalar.same_comm, hn e he]
      have hplace : List.Forall₂ (fun m n => m.same n = true) (p ++ [n]) (p ++ [k]) :=
        List.rel_append (List.forall₂_same.2 fun m _ => Scalar.same_refl m) (.cons hk .nil)
      simp only [hlater, if_true, mergeValue_congr hplace, lookup_congr hk]

end OneMapping

/-! ## One place -/

section OnePlace

variable {b u s : Setting} {place first : List Scalar}

/-- A setting of the user that is replaced stands as it is. -/
lemma mergeValue_of_isReplacedAt (h : IsReplacedAt b u place) (hs : u.at? place = some s) :
    mergeValue place (b.at? place) s = s := by
  obtain ⟨s', hs', hreplaced⟩ := h
  rw [Option.some.inj (hs'.symm.trans hs)] at hreplaced
  cases s with
  | scalar _ => rfl
  | list _ => rfl
  | mapping us =>
    rcases hreplaced with hmapping | hbase | rfl
    · exact absurd rfl (hmapping us)
    · cases hb : b.at? place with
      | none => rfl
      | some t =>
        cases t with
        | scalar _ => rfl
        | list _ => rfl
        | mapping bs => exact absurd ⟨bs, hb⟩ hbase
    · cases b.at? aliasPlace with
      | none => rfl
      | some t => cases t <;> rfl

/-- Where the user has a setting that is not replaced, both have mappings and these are merged. -/
lemma exists_mappings_of_not_isReplacedAt (h : ¬ IsReplacedAt b u place)
    (hs : u.at? place = some s) :
    ∃ bs us, b.at? place = some (.mapping bs) ∧ s = .mapping us ∧
      mergeValue place (b.at? place) s = .mapping (mergeEntries place bs us) := by
  simp only [IsReplacedAt, not_exists, not_and, not_or, not_forall, not_not] at h
  obtain ⟨⟨us, rfl⟩, ⟨bs, hb⟩, hplace⟩ := h s hs
  refine ⟨bs, us, hb, rfl, ?_⟩
  have hwhole : isReplaced place = false := by
    rw [isReplaced, beq_eq_false_iff_ne]
    exact hplace
  rw [hb, mergeValue, if_neg (by simp [hwhole])]

/-- **One place.** If no place on the way is replaced, the setting of the user stands there over that
of the base. -/
lemma at?_merge {b u : Entries} (hu : IsWellFormed (.mapping u))
    (hbefore : ∀ before, before <+: place → before ≠ place →
      ¬ IsReplacedAt (.mapping b) (.mapping u) before) :
    (Setting.mapping (merge b u)).at? place =
      match (Setting.mapping u).at? place with
      | some s => some (mergeValue place ((Setting.mapping b).at? place) s)
      | none => (Setting.mapping b).at? place := by
  induction place using List.reverseRecOn with
  | nil => rfl
  | append_singleton place name ih =>
    have hhere : ¬ IsReplacedAt (.mapping b) (.mapping u) place :=
      hbefore place (List.prefix_append place [name]) (by simp)
    have hplace := ih fun before h hne => hbefore before (h.trans (List.prefix_append _ _)) <| by
      rintro rfl
      have hlength := h.length_le
      rw [List.length_append, List.length_singleton] at hlength
      omega
    rw [at?_concat, at?_concat, at?_concat, hplace]
    cases hs : (Setting.mapping u).at? place with
    | none => rfl
    | some s =>
      obtain ⟨bs, us, hb, rfl, hmerged⟩ := exists_mappings_of_not_isReplacedAt hhere hs
      rw [hb] at hmerged
      simp only [hb, Option.bind_some, child?, hmerged]
      rw [lookup_mergeEntries (hu.at? hs).areDistinct]

/-- At a place that is replaced, and behind it, stands what the user has there. -/
lemma at?_merge_of_isReplacedAt {b u : Entries} (hu : IsWellFormed (.mapping u))
    (hfirst : IsFirstReplacedAt (.mapping b) (.mapping u) first) (h : first <+: place) :
    (Setting.mapping (merge b u)).at? place = (Setting.mapping u).at? place := by
  obtain ⟨rest, rfl⟩ := h
  have hhere := at?_merge hu hfirst.2
  obtain ⟨s, hs, -⟩ := hfirst.1
  rw [hs] at hhere
  simp only [mergeValue_of_isReplacedAt hfirst.1 hs] at hhere
  rw [at?_append, at?_append, hs, hhere]

/-- The aliases of a user stand as they are, whatever the base has. -/
lemma at?_merge_aliasPlace {b u : Entries} (hu : IsWellFormed (.mapping u))
    (hs : (Setting.mapping u).at? aliasPlace = some s) :
    (Setting.mapping (merge b u)).at? aliasPlace = some s := by
  have hreplaced : IsReplacedAt (.mapping b) (.mapping u) aliasPlace :=
    ⟨s, hs, Or.inr (Or.inr rfl)⟩
  obtain ⟨first, hprefix, hfirst⟩ := exists_isFirstReplacedAt ⟨_, List.prefix_rfl, hreplaced⟩
  rw [at?_merge_of_isReplacedAt hu hfirst hprefix, hs]

/-- What the base has at a place is merged along the way if the user has nothing but mappings on the
way, and none at the place of the aliases. -/
lemma isMergedAlong_of_mappings (hb : (b.at? place).isSome) (hplace : u.at? place = none)
    (huser : ∀ before s, before <+: place → u.at? before = some s →
      before ≠ aliasPlace ∧ ∃ es, s = .mapping es) :
    IsMergedAlong b u place := by
  rintro before hbefore ⟨s, hs, hreplaced⟩
  obtain ⟨haliases, es, rfl⟩ := huser before s hbefore hs
  have hne : before ≠ place := by
    rintro rfl
    rw [hplace] at hs
    cases hs
  rcases hreplaced with hmapping | hbase | hwhole
  · exact hmapping es rfl
  · exact hbase (isMappingAt_of_isPrefix hb hbefore hne)
  · exact haliases hwhole

end OnePlace

/-! ## Writing again -/

section WritingAgain

variable {s : Setting} {p : List Scalar}

/-- Entries that are there already may be written once more. -/
lemma mergeEntries_eq_self {us : Entries} {m : Entries}
    (h : ∀ e ∈ us, ∃ t, lookup e.1 m = some t ∧ mergeValue (p ++ [e.1]) (some t) e.2 = t) :
    mergeEntries p m us = m := by
  induction us with
  | nil => rfl
  | cons e us ih =>
    obtain ⟨t, hlookup, hvalue⟩ := h e List.mem_cons_self
    rw [mergeEntries, hlookup, hvalue, write_of_lookup hlookup]
    exact ih fun f hf => h f (List.mem_cons_of_mem _ hf)

/-- A setting over itself is the setting. -/
lemma mergeValue_self (hs : IsWellFormed s) (p : List Scalar) : mergeValue p (some s) s = s := by
  induction hs generalizing p with
  | scalar _ => rfl
  | list _ => rfl
  | mapping names values ih =>
    rw [mergeValue]
    split
    · rfl
    · rw [mergeEntries_eq_self fun e he => ⟨e.2, lookup_of_mem names he, ih e he _⟩]

/-- A setting that is written twice is written once. -/
lemma mergeValue_mergeValue (hs : IsWellFormed s) (p : List Scalar) (base : Option Setting) :
    mergeValue p (some (mergeValue p base s)) s = mergeValue p base s := by
  induction hs generalizing p base with
  | scalar _ => rfl
  | list _ => rfl
  | @mapping us names values ih =>
    have hself := mergeValue_self (.mapping names values) p
    cases base with
    | none => exact hself
    | some b =>
      cases b with
      | scalar _ => exact hself
      | list _ => exact hself
      | mapping bs =>
        rw [mergeValue]
        split
        · exact hself
        · rename_i hwhole
          rw [mergeValue, if_neg hwhole, mergeEntries_eq_self fun e he => ?_]
          refine ⟨mergeValue (p ++ [e.1]) (lookup e.1 bs) e.2, ?_, ih e he _ _⟩
          rw [lookup_mergeEntries names, lookup_of_mem names he]

end WritingAgain

/-! ## The whole configuration -/

section Whole

variable {s : Setting} {p : List Scalar}

/-- Writing a well-formed setting keeps a mapping well-formed. -/
lemma IsWellFormed.write {es : Entries} (hes : IsWellFormed (.mapping es)) (n : Scalar)
    (hs : IsWellFormed s) : IsWellFormed (.mapping (write n s es)) :=
  .mapping (hes.areDistinct.write n s) fun e he => by
    rcases mem_write he with he | he
    · exact hes.of_mem he
    · exact he ▸ hs

/-- Entries that come out well-formed keep a mapping well-formed. -/
lemma isWellFormed_mergeEntries {bs us : Entries} (hbs : IsWellFormed (.mapping bs))
    (h : ∀ e ∈ us, ∀ p base, (∀ t, base = some t → IsWellFormed t) →
      IsWellFormed (mergeValue p base e.2)) :
    IsWellFormed (.mapping (mergeEntries p bs us)) := by
  induction us generalizing bs with
  | nil => exact hbs
  | cons e us ih =>
    refine ih (hbs.write e.1 (h e List.mem_cons_self _ _ fun t ht => ?_)) fun f hf =>
      h f (List.mem_cons_of_mem _ hf)
    obtain ⟨n, hn, -⟩ := mem_of_lookup ht
    exact hbs.of_mem hn

/-- A well-formed setting over a well-formed one comes out well-formed. -/
lemma isWellFormed_mergeValue (hs : IsWellFormed s) (p : List Scalar) (base : Option Setting)
    (hbase : ∀ t, base = some t → IsWellFormed t) : IsWellFormed (mergeValue p base s) := by
  induction hs generalizing p base with
  | scalar s => exact .scalar s
  | list items => exact .list items
  | @mapping us names values ih =>
    cases base with
    | none => exact .mapping names values
    | some b =>
      cases b with
      | scalar _ => exact .mapping names values
      | list _ => exact .mapping names values
      | mapping bs =>
        rw [mergeValue]
        split
        · exact .mapping names values
        · exact isWellFormed_mergeEntries (hbase _ rfl) ih

/-- The settings of a user over a base are what the places of the two say. -/
lemma isWrittenOver_merge {b u : Entries} (hb : IsWellFormed (.mapping b))
    (hu : IsWellFormed (.mapping u)) :
    IsWrittenOver (.mapping b) (.mapping u) (.mapping (merge b u)) where
  wellFormed := isWellFormed_mergeValue hu [] (some (.mapping b)) fun _ ht => Option.some.inj ht ▸ hb
  replaced place h := at?_merge_of_isReplacedAt hu h List.prefix_rfl
  kept place s hmerged hs hnone := by
    rw [at?_merge hu fun before h _ => hmerged before h, hnone, hs]
  joined place hmerged hbase huser := by
    obtain ⟨us, hus⟩ := huser
    obtain ⟨bs, us', -, -, h⟩ :=
      exists_mappings_of_not_isReplacedAt (hmerged place List.prefix_rfl) hus
    refine ⟨mergeEntries place bs us', ?_⟩
    rw [at?_merge hu fun before h _ => hmerged before h, hus]
    exact congrArg some h
  only place hplace := by
    rcases isMergedAlong_or_exists (.mapping b) (.mapping u) place with hmerged | hfirst
    · refine Or.inr ⟨hmerged, ?_⟩
      rw [at?_merge hu fun before h _ => hmerged before h] at hplace
      cases hs : (Setting.mapping u).at? place with
      | none =>
        rw [hs] at hplace
        exact Or.inl ⟨hplace, rfl⟩
      | some s =>
        obtain ⟨bs, us, hbs, rfl, -⟩ :=
          exists_mappings_of_not_isReplacedAt (hmerged place List.prefix_rfl) hs
        exact Or.inr ⟨⟨bs, hbs⟩, ⟨us, hs⟩⟩
    · exact Or.inl hfirst

/-- **The settings of a user written over a base.** At the first places that the user replaces stand
the settings of the user, where the user says nothing those of the base, where both have mappings a
mapping, and nothing else. Writing them twice is writing them once; writing nothing, or the base over
itself, changes nothing. The aliases of a user stand without those of the base, and what the base has
outside what the user names stays. -/
theorem merge_exact (b u : Entries) (hb : IsWellFormed (.mapping b))
    (hu : IsWellFormed (.mapping u)) :
    IsWrittenOver (.mapping b) (.mapping u) (.mapping (merge b u)) ∧
    merge (merge b u) u = merge b u ∧
    merge b [] = b ∧
    merge b b = b ∧
    (∀ s, (Setting.mapping u).at? aliasPlace = some s →
      (Setting.mapping (merge b u)).at? aliasPlace = some s) ∧
    (∀ place s, (Setting.mapping b).at? place = some s → (Setting.mapping u).at? place = none →
      (∀ before t, before <+: place → (Setting.mapping u).at? before = some t →
        before ≠ aliasPlace ∧ ∃ es, t = .mapping es) →
      (Setting.mapping (merge b u)).at? place = some s) := by
  have hwritten := isWrittenOver_merge hb hu
  have htwice := mergeValue_mergeValue hu [] (some (.mapping b))
  have hself := mergeValue_self hb []
  refine ⟨hwritten, ?_, rfl, ?_, fun s => at?_merge_aliasPlace hu, fun place s hs hnone huser => ?_⟩
  · exact Setting.mapping.inj htwice
  · exact Setting.mapping.inj hself
  · have hplace : ((Setting.mapping b).at? place).isSome := by rw [hs]; rfl
    exact hwritten.kept place s (isMergedAlong_of_mappings hplace hnone huser) hs hnone

/-- The aliases and a section of the standard configuration are replaced. -/
theorem merge_exact_of_aliases :
    let u : Entries :=
      [(.text "resolve", .named [("aliases", .named [("~", .text "app")])]), (.text "general", .null)]
    IsWellFormed (.mapping Config.standard) ∧ IsWellFormed (.mapping u) ∧
    IsWrittenOver (.mapping Config.standard) (.mapping u) (.mapping (merge Config.standard u)) ∧
    merge (merge Config.standard u) u = merge Config.standard u ∧
    (Setting.mapping (merge Config.standard u)).at? aliasPlace =
      some (.named [("~", .text "app")]) := by
  intro u
  have hu : IsWellFormed (.mapping u) := by
    simp only [u, named, null, text, isWellFormed_mapping_iff, List.map_cons, List.map_nil,
      List.forall_mem_cons, List.not_mem_nil, IsEmpty.forall_iff, implies_true,
      IsWellFormed.scalar, and_true]
    decide
  obtain ⟨hwritten, htwice, -, -, haliases, -⟩ :=
    merge_exact Config.standard u isWellFormed_standard hu
  exact ⟨isWellFormed_standard, hu, hwritten, htwice, haliases _ rfl⟩

-- a mapping of the same name at another place is merged
example :
    merge [(.text "aliases", .named [("@", .text "src")])]
        [(.text "aliases", .named [("~", .text "app")])] =
      [(.text "aliases", .named [("@", .text "src"), ("~", .text "app")])] := by
  cbv

end Whole

end RouteAssets.Setting
