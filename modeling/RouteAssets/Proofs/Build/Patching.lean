import RouteAssets.Proofs.Build.Emission
import RouteAssets.Proofs.Disk.Overwriting
import RouteAssets.Proofs.Json.Occurrence

/-!
# Emitted scripts are patched

Two searches take part in patching. A script is written when it **mentions** the placeholder, be it
quoted or not (`mentions`); what is replaced in its text is the placeholder between double quotation
marks. In between, the text is read with unified line ends, and written as it is then.

* **Texts** (`inject_exact`): all quoted placeholders of a text are replaced, leftmost first, and
  none comes about, unless a text of the map holds the placeholder. The placeholders that are left
  are the **bare** ones, in the parts between those that are replaced (`contains_inject`).
* **Scripts** (`exists_run_foldlM`, `exists_run_patch`): patching one script changes the file at its
  place alone, and the scripts of a tree have different places, so that each is patched as it was
  found (`Patches`). Nothing can fail on the way.
* **What is listed** (`patch_clears_iff`): patching lists the scripts that mention the placeholder.
  These are the ones that change, and none of them is listed again, exactly if none has a bare
  placeholder.
* **What is kept** (`patch_keepsRest_iff`): everything but the quoted placeholders of a script is
  kept exactly if the script does not mention the placeholder or has no carriage return.
-/

namespace RouteAssets

open RouteAssets.Text

/-! ## Line ends -/

section Lines

variable {pattern : List Char}

/-- Unified texts have no carriage returns. -/
lemma Text.not_mem_unifyLines (cs : List Char) : '\r' ∉ unifyLines cs := by
  induction cs using unifyLines.induct with
  | case1 => simp [unifyLines]
  | case2 cs ih => simp [unifyLines, ih]
  | case3 cs hcs ih => simpa [unifyLines] using ih
  | case4 c cs _ hc ih => simp [unifyLines, ih, Ne.symm hc]

/-- Only the empty text is the beginning of a text that starts with a character it does not have. -/
lemma Text.prefix_cons_iff_of_not_mem {c : Char} {cs : List Char} (hc : c ∉ pattern) :
    pattern <+: c :: cs ↔ pattern = [] := by
  cases pattern with
  | nil => simp
  | cons p ps =>
    simp only [List.mem_cons, not_or] at hc
    simp [List.cons_prefix_cons, Ne.symm hc.1]

/-- What has no line ends is the beginning of a text just if it is the beginning of the unified
text. -/
lemma Text.prefix_unifyLines_iff (hreturn : '\r' ∉ pattern) (hline : '\n' ∉ pattern)
    (cs : List Char) : pattern <+: unifyLines cs ↔ pattern <+: cs := by
  induction cs using unifyLines.induct generalizing pattern with
  | case1 => simp [unifyLines]
  | case2 cs ih =>
    rw [unifyLines, prefix_cons_iff_of_not_mem hline, prefix_cons_iff_of_not_mem hreturn]
  | case3 cs hcs ih =>
    simp only [unifyLines]
    rw [prefix_cons_iff_of_not_mem hline, prefix_cons_iff_of_not_mem hreturn]
  | case4 c cs _ hc ih =>
    simp only [unifyLines]
    cases pattern with
    | nil => simp
    | cons p ps =>
      simp only [List.mem_cons, not_or] at hreturn hline
      rw [List.cons_prefix_cons, List.cons_prefix_cons, ih hreturn.2 hline.2]

/-- What has no line ends occurs in a text just if it occurs in the unified text. -/
lemma Text.infix_unifyLines_iff (hpattern : pattern ≠ []) (hreturn : '\r' ∉ pattern)
    (hline : '\n' ∉ pattern) (cs : List Char) : pattern <:+: unifyLines cs ↔ pattern <:+: cs := by
  induction cs using unifyLines.induct with
  | case1 => simp [unifyLines]
  | case2 cs ih =>
    rw [unifyLines, infix_cons_iff_of_not_mem hpattern hline,
      infix_cons_iff_of_not_mem hpattern hreturn, infix_cons_iff_of_not_mem hpattern hline, ih]
  | case3 cs hcs ih =>
    simp only [unifyLines]
    rw [infix_cons_iff_of_not_mem hpattern hline, infix_cons_iff_of_not_mem hpattern hreturn, ih]
  | case4 c cs _ hc ih =>
    have hfront := prefix_unifyLines_iff hreturn hline (c :: cs)
    simp only [unifyLines] at hfront ⊢
    rw [List.infix_cons_iff, List.infix_cons_iff, hfront, ih]

end Lines

/-! ## Texts -/

namespace RouteMap

/-- The texts of a map: its routes and the names of their files. -/
def texts (m : RouteMap) : List String := m.keys ++ m.values.flatten

/-- The strings in the JSON form of a map are its texts. -/
lemma mem_texts_of_hasText {m : RouteMap} {s : String} (h : Json.HasText s m.toJson) :
    s ∈ m.texts := by
  unfold toJson at h
  unfold texts
  cases h with
  | name hm =>
    obtain ⟨⟨route, files⟩, he, heq⟩ := List.mem_map.1 hm
    cases heq
    exact List.mem_append_left _ (List.mem_map_of_mem (f := Prod.fst) he)
  | member hm h =>
    obtain ⟨⟨route, files⟩, he, rfl⟩ := List.mem_map.1 hm
    have hfile : s ∈ files := by
      cases h with
      | item hx h =>
        obtain ⟨file, hfile, rfl⟩ := List.mem_map.1 hx
        cases h
        exact hfile
    exact List.mem_append_right _
      (List.mem_flatten.2 ⟨files, List.mem_map_of_mem (f := Prod.snd) he, hfile⟩)

/-- The JSON of a map stands between braces. -/
lemma exists_toList_compact (m : RouteMap) :
    ∃ body, m.toJson.compact.toList = '{' :: (body ++ ['}']) := by
  rw [Json.compact, String.toList_ofList, toJson, Json.written_object,
    Json.Layout.container_line]
  exact ⟨_, rfl⟩

/-- The JSON of a map has no carriage returns. -/
lemma not_mem_compact (m : RouteMap) : '\r' ∉ m.toJson.compact.toList := by
  intro h
  rw [Json.compact, String.toList_ofList] at h
  have hink := Json.isInk_of_mem_written m.isPlain_toJson .line 0 '\r' h
  revert hink
  decide

end RouteMap

namespace Emission

section Texts

variable {m : RouteMap} {code : String} {cs : List Char}

/-- The placeholder is a word of capital letters and underscores. -/
lemma isCapitals_placeholder : Json.IsCapitals placeholder.toList where
  ne_nil := by simp [placeholder]
  isCapital := by simp [placeholder, Json.isCapital]

/-- A quoted placeholder is a placeholder. -/
lemma placeholder_infix_quotedPlaceholder : placeholder.toList <:+: quotedPlaceholder.toList := by
  decide

/-- The JSON of a map stands between braces, and what they enclose does not mention the placeholder
if no text of the map does. -/
lemma exists_body (hm : ∀ s ∈ m.texts, contains s placeholder = false) :
    ∃ body, m.toJson.compact.toList = '{' :: (body ++ ['}']) ∧ ¬ placeholder.toList <:+: body := by
  obtain ⟨body, hbody⟩ := m.exists_toList_compact
  refine ⟨body, hbody, ?_⟩
  intro h
  have hwritten : placeholder.toList <:+: m.toJson.compact.toList := by
    rw [hbody]
    exact h.trans (List.infix_append' ['{'] body ['}'])
  rw [Json.compact, String.toList_ofList] at hwritten
  obtain ⟨s, hs, hinfix⟩ :=
    Json.exists_hasText_of_infix isCapitals_placeholder m.isPlain_toJson hwritten
  have hcontains := contains_iff_infix.2 hinfix
  simp [hm s (RouteMap.mem_texts_of_hasText hs)] at hcontains

/-- The quoted placeholders of a text are replaced. -/
lemma replaced_inject (code : String) (m : RouteMap) :
    Replaced quotedPlaceholder.toList m.toJson.compact.toList code.toList
      (inject code m).toList := by
  rw [inject, String.toList_ofList]
  exact replaced_replaceFrom (by decide) _ _

/-- A text without quoted placeholders stays as it is. -/
lemma inject_of_not_contains (h : contains code quotedPlaceholder = false) (m : RouteMap) :
    inject code m = code := by
  rw [← String.toList_inj]
  apply (replaced_inject code m).eq_self
  rw [← contains_iff_infix, h]
  simp

/-- **Replacing the quoted placeholders.** For every text and every map of whose routes and files
none holds the placeholder: what comes out has no quoted placeholder; it is the text with every
quoted placeholder, leftmost first and without overlaps, replaced by the JSON of the map; and there
is nothing left to replace by another map. -/
theorem inject_exact (code : String) (m₁ m₂ : RouteMap)
    (h : ∀ s ∈ m₁.texts, contains s placeholder = false) :
    contains (inject code m₁) quotedPlaceholder = false ∧
      Replaced quotedPlaceholder.toList m₁.toJson.compact.toList code.toList
        (inject code m₁).toList ∧
      inject (inject code m₁) m₂ = inject code m₁ := by
  obtain ⟨body, hbody, hfree⟩ := exists_body h
  have hquoted : ¬ quotedPlaceholder.toList <:+: body :=
    fun hinfix => hfree (placeholder_infix_quotedPlaceholder.trans hinfix)
  have hreplaced := replaced_inject code m₁
  rw [hbody] at hreplaced
  have hclear : contains (inject code m₁) quotedPlaceholder = false := by
    rw [← Bool.not_eq_true, contains_iff_infix]
    exact hreplaced.not_infix (by decide) (by decide) (by decide) hquoted
  exact ⟨hclear, replaced_inject code m₁, inject_of_not_contains hclear m₂⟩

/-- Of two quoted placeholders that share a mark the first one is replaced, and the JSON of the map
escapes the marks of its texts. -/
theorem inject_exact_of_shared_mark :
    let m₁ : RouteMap := Table.ofList [("/\"a\"", ["a.js"])]
    let code := "x = " ++ quotedPlaceholder ++ placeholder ++ "\";"
    contains (inject code m₁) quotedPlaceholder = false ∧
      inject (inject code m₁) Table.empty = inject code m₁ ∧
      inject code m₁ = "x = \x7b\"/\\\"a\\\"\": [\"a.js\"]\x7d" ++ placeholder ++ "\";" := by
  intro m₁ code
  obtain ⟨hclear, -, hagain⟩ := inject_exact code m₁ Table.empty (by decide)
  exact ⟨hclear, hagain, by decide⟩

/-- Is there a placeholder beside the quoted ones? -/
def hasBare (code : String) : Bool :=
  (partsBetween quotedPlaceholder.toList 0 code.toList).any (occursIn placeholder.toList)

/-- The placeholders that are left are the bare ones. -/
lemma contains_inject (hm : ∀ s ∈ m.texts, contains s placeholder = false) (code : String) :
    contains (inject code m) placeholder = hasBare code := by
  obtain ⟨body, hbody, hfree⟩ := exists_body hm
  rw [Bool.eq_iff_iff, contains_iff_infix, inject, String.toList_ofList,
    replaceFrom_eq_intercalate, hbody,
    infix_intercalate_iff (by decide) (by decide) (by decide) hfree]
  simp [hasBare, occursIn_iff_infix]

/-- Without a placeholder there is no quoted one. -/
lemma contains_quotedPlaceholder_of_not_contains (h : contains code placeholder = false) :
    contains code quotedPlaceholder = false := by
  rw [← Bool.not_eq_true, contains_iff_infix] at h ⊢
  exact fun hquoted => h (placeholder_infix_quotedPlaceholder.trans hquoted)

/-- Without a placeholder there is no bare one. -/
lemma hasBare_of_not_contains (h : contains code placeholder = false) : hasBare code = false := by
  have hquoted := contains_quotedPlaceholder_of_not_contains h
  rw [← contains_inject (m := Table.empty) (by decide) code, inject_of_not_contains hquoted, h]

end Texts

/-! ## Scripts -/

/-- Can a path be read, and does its text pass a test? -/
def holds (test : String → Bool) (d : Disk) (p : Path) : Bool := (d.readText p).toOption.any test

/-- Does a path mention the placeholder? -/
def mentions : Disk → Path → Bool := holds (contains · placeholder)

/-- Does a path mention a bare placeholder? -/
def mentionsBare : Disk → Path → Bool := holds hasBare

/-- Two disks, the second one with the map put into those of some paths that mention the
placeholder. -/
structure Patches (m : RouteMap) (ps : List Path) (d d' : Disk) : Prop where
  shape : d.SameShape d'
  kept : ∀ q, (∀ p ∈ ps, mentions d p = true → d.locate p ≠ .ok q) → d'.node? q = d.node? q
  patched : ∀ p ∈ ps, ∀ code, d.readText p = .ok code → contains code placeholder = true →
    d'.readBytes p = .ok (writeUtf8 (inject code m).toList)
  untouched : (∀ p ∈ ps, mentions d p = false) → d' = d

section Scripts

variable {m : RouteMap} {d d' : Disk} {p directory : Path} {ps : List Path} {code : String}

/-- A text that is read is tested. -/
lemma holds_of_readText (test : String → Bool) (h : d.readText p = .ok code) :
    holds test d p = test code := by
  simp [holds, h, Except.toOption]

/-- Of a path that cannot be read no test holds. -/
lemma holds_of_error (test : String → Bool) {e : TextError} (h : d.readText p = .error e) :
    holds test d p = false := by
  simp [holds, h, Except.toOption]

/-- A path mentions the placeholder if its text does. -/
lemma mentions_of_readText (h : d.readText p = .ok code) :
    mentions d p = contains code placeholder :=
  holds_of_readText _ h

/-- A path that cannot be read does not mention the placeholder. -/
lemma mentions_of_error {e : TextError} (h : d.readText p = .error e) : mentions d p = false :=
  holds_of_error _ h

/-- What is read as bytes decides what is read as text. -/
lemma readText_congr (h : d'.readBytes p = d.readBytes p) : d'.readText p = d.readText p := by
  simp only [Disk.readText, h]

/-- What is read decides what is mentioned. -/
lemma mentions_congr (h : d'.readBytes p = d.readBytes p) : mentions d' p = mentions d p := by
  simp only [mentions, holds, readText_congr h]

/-- A text is read from a file. -/
lemma exists_file_of_readText (h : d.readText p = .ok code) :
    ∃ place old, d.locate p = .ok place ∧ d.node? place = some (.file old) := by
  unfold Disk.readText at h
  cases hread : d.readBytes p with
  | error e => simp [hread] at h
  | ok bytes =>
    obtain ⟨place, hplace, hbytes⟩ := Disk.readBytes_eq_ok_iff.1 hread
    exact ⟨place, bytes, hplace, Disk.bytesAt?_eq_some_iff.1 hbytes⟩

/-- A question that is answered changes nothing. -/
lemma run_ask {α : Type} {question : Disk → Except DiskError α} {a : α} (h : question d = .ok a) :
    (ask question).run d = (.ok a, d) := by
  unfold ask
  rw [run_bind_ok (show (get : EmissionStep Disk).run d = (.ok d, d) from rfl)]
  simp only [h]
  rfl

/-- A change that is made is made as a step of emitting. -/
lemma run_change {α : Type} {c : DiskChange α} {a : α} (h : c.run d = (.ok a, d')) :
    (change c).run d = (.ok a, d') := by
  unfold change
  rw [run_bind_ok (show (get : EmissionStep Disk).run d = (.ok d, d) from rfl)]
  simp only [h]
  rfl

/-- What leads elsewhere reads what it read. -/
lemma Patches.readBytes_eq (h : Patches m ps d d')
    (hp : ∀ q ∈ ps, ∀ place, d.locate q = .ok place → d.locate p ≠ .ok place) :
    d'.readBytes p = d.readBytes p := by
  apply h.shape.readBytes_congr
  intro place hplace
  apply h.kept
  intro q hq _ hqplace
  exact hp q hq place hqplace hplace

/-- Nothing is patched where there are no paths. -/
lemma Patches.nil (m : RouteMap) (d : Disk) : Patches m [] d d where
  shape := .refl d
  kept _ _ := rfl
  patched _ hp := absurd hp List.not_mem_nil
  untouched _ := rfl

/-- One path is patched, and then others that lead elsewhere. -/
lemma Patches.cons {d₁ : Disk} (h : Patches m [p] d d₁) (h' : Patches m ps d₁ d')
    (hp : ∀ r ∈ ps, ∀ place, d.locate p = .ok place → d.locate r ≠ .ok place) :
    Patches m (p :: ps) d d' where
  shape := h.shape.trans h'.shape
  kept q hq := by
    obtain ⟨hpq, hq⟩ := List.forall_mem_cons.1 hq
    rw [h'.kept q, h.kept q (by simpa using hpq)]
    intro r hr hmentions
    rw [h.shape.locate_eq]
    apply hq r hr
    rwa [← mentions_congr (h.readBytes_eq (by simpa using hp r hr))]
  patched := by
    intro q hq code hread hcode
    rcases List.mem_cons.1 hq with rfl | hq
    · rw [h'.readBytes_eq]
      · exact h.patched q (by simp) code hread hcode
      · intro r hr place hplace hqplace
        rw [h.shape.locate_eq] at hplace hqplace
        exact hp r hr place hqplace hplace
    · apply h'.patched q hq code _ hcode
      rwa [readText_congr (h.readBytes_eq (by simpa using hp q hq))]
  untouched hnone := by
    obtain ⟨hnone_p, hnone⟩ := List.forall_mem_cons.1 hnone
    obtain rfl := h.untouched (by simpa using hnone_p)
    exact h'.untouched hnone

/-- A path that does not mention the placeholder is left alone. -/
lemma Patches.refl_of_not_mentions (m : RouteMap) (h : mentions d p = false) :
    Patches m [p] d d where
  shape := .refl d
  kept _ _ := rfl
  patched := by
    intro q hq code hread hcode
    obtain rfl := List.mem_singleton.1 hq
    rw [mentions_of_readText hread, hcode] at h
    cases h
  untouched _ := rfl

/-- The file of a path that mentions the placeholder is written. -/
lemma Patches.put {place : List String} {old : List UInt8} (m : RouteMap)
    (hread : d.readText p = .ok code) (hcode : contains code placeholder = true)
    (hplace : d.locate p = .ok place) (hnode : d.node? place = some (.file old)) :
    Patches m [p] d (d.put place (.file (writeUtf8 (inject code m).toList))) where
  shape := Disk.sameShape_put hnode _
  kept q hq := by
    have hne : place ≠ q := by
      rintro rfl
      exact hq p (by simp) (by rwa [mentions_of_readText hread]) hplace
    simp [Disk.node?_put, hne]
  patched := by
    intro q hq code' hread' _
    obtain rfl := List.mem_singleton.1 hq
    obtain rfl : code = code' := Except.ok.inj (hread.symm.trans hread')
    exact Disk.readBytes_put hplace hnode
  untouched hnone := by
    have hmentions := hnone p (by simp)
    rw [mentions_of_readText hread, hcode] at hmentions
    cases hmentions

/-- A path that mentions the placeholder is listed and patched. Another one is left alone. -/
lemma exists_run_patchFile (m : RouteMap) (d : Disk) (p : Path) (done : Patched) :
    ∃ notices d', (patchFile m done p).run d =
      (.ok ⟨done.files ++ [p].filter (mentions d), notices⟩, d') ∧ Patches m [p] d d' := by
  have hget : (get : EmissionStep Disk).run d = (.ok d, d) := rfl
  unfold patchFile
  rw [run_bind_ok hget]
  cases hread : d.readText p with
  | error e =>
    have hmentions := mentions_of_error hread
    rw [List.filter_cons_of_neg (by simp [hmentions]), List.filter_nil, List.append_nil]
    exact ⟨_, d, rfl, .refl_of_not_mentions m hmentions⟩
  | ok code =>
    by_cases hcode : contains code placeholder = true
    · obtain ⟨place, old, hplace, hnode⟩ := exists_file_of_readText hread
      have hwrite := run_change (Disk.run_writeBytes_over hplace hnode
        (writeUtf8 (inject code m).toList))
      have hmentions : mentions d p = true := by rwa [mentions_of_readText hread]
      rw [List.filter_cons_of_pos hmentions, List.filter_nil]
      simp only [hcode, if_true]
      rw [Disk.writeText, run_bind_ok hwrite]
      exact ⟨_, _, rfl, .put m hread hcode hplace hnode⟩
    · have hmentions : mentions d p = false := by simpa [mentions_of_readText hread] using hcode
      rw [List.filter_cons_of_neg (by simp [hmentions]), List.filter_nil, List.append_nil]
      simp only [hcode]
      exact ⟨_, d, rfl, .refl_of_not_mentions m hmentions⟩

/-- **Patching one path after the other.** Paths of which no two lead to one place are patched as
they are found, and those that mention the placeholder are listed. -/
lemma exists_run_foldlM
    (hps : ps.Pairwise fun q r => ∀ place, d.locate q = .ok place → d.locate r ≠ .ok place)
    (done : Patched) :
    ∃ notices d', (ps.foldlM (patchFile m) done).run d =
      (.ok ⟨done.files ++ ps.filter (mentions d), notices⟩, d') ∧ Patches m ps d d' := by
  induction ps generalizing d done with
  | nil => exact ⟨done.notices, d, by simp; rfl, .nil m d⟩
  | cons p ps ih =>
    obtain ⟨hp, hps⟩ := List.pairwise_cons.1 hps
    obtain ⟨notices, d₁, hstep, hpatches⟩ := exists_run_patchFile m d p done
    have hps₁ : ps.Pairwise fun q r =>
        ∀ place, d₁.locate q = .ok place → d₁.locate r ≠ .ok place := by
      simpa only [hpatches.shape.locate_eq] using hps
    obtain ⟨notices', d', hrun, hpatches'⟩ :=
      ih hps₁ ⟨done.files ++ [p].filter (mentions d), notices⟩
    refine ⟨notices', d', ?_, hpatches.cons hpatches' hp⟩
    -- the paths that follow lead elsewhere, so that they mention what they mentioned
    have hsame : ps.filter (mentions d₁) = ps.filter (mentions d) := by
      apply List.filter_congr
      intro r hr
      exact mentions_congr (hpatches.readBytes_eq (by simpa using hp r hr))
    rw [List.foldlM_cons, run_bind_ok hstep, hrun, hsame, List.append_assoc, ← List.filter_append,
      List.singleton_append]

/-- The scripts of a tree lead to different places. -/
lemma pairwise_emittedScripts (hd : d.IsTree) (directory : Path) :
    (emittedScripts d directory).Pairwise fun q r =>
      ∀ place, d.locate q = .ok place → d.locate r ≠ .ok place := by
  have hsorted := (d.pairwise_descendants directory).filter fun p => endsWith p.name ".js"
  refine hsorted.imp_of_mem ?_
  intro q r hq hr hqr place hplace hrplace
  obtain rfl := hd.locate_injOn_descendants (List.mem_of_mem_filter hq)
    (List.mem_of_mem_filter hr) hplace hrplace
  simp [namesBefore_irrefl] at hqr

/-- **Patching a directory.** On a tree, whatever can be asked to be a directory is patched: the
scripts that mention the placeholder are listed, and all scripts are patched as they were found. -/
lemma exists_run_patch (hd : d.IsTree) {b : Bool} (hdirectory : d.isDirectory directory = .ok b)
    (m : RouteMap) :
    ∃ notices d', (patch m directory).run d =
      (.ok ⟨(emittedScripts d directory).filter (mentions d), notices⟩, d') ∧
      Patches m (emittedScripts d directory) d d' := by
  unfold patch
  rw [run_bind_ok (run_ask hdirectory)]
  cases b with
  | false =>
    have hnone : emittedScripts d directory = [] := by
      simp [emittedScripts, hd.descendants_eq_nil hdirectory]
    rw [hnone]
    exact ⟨[], d, rfl, .nil m d⟩
  | true =>
    have hget : (get : EmissionStep Disk).run d = (.ok d, d) := rfl
    simp only [if_true]
    rw [run_bind_ok hget]
    exact exists_run_foldlM (pairwise_emittedScripts hd directory) ⟨[], []⟩

/-- There are the same scripts when they have been patched. -/
lemma Patches.emittedScripts_eq (h : Patches m ps d d') (directory : Path) :
    emittedScripts d' directory = emittedScripts d directory := by
  rw [emittedScripts, h.shape.descendants_eq, emittedScripts]

/-- Scripts that do not mention the placeholder stay as they are. -/
lemma Patches.readBytes_of_not_mentions (hd : d.IsTree)
    (h : Patches m (emittedScripts d directory) d d') (hp : p ∈ emittedScripts d directory)
    (hmentions : mentions d p = false) : d'.readBytes p = d.readBytes p := by
  apply h.shape.readBytes_congr
  intro place hplace
  apply h.kept
  intro q hq hqmentions hqplace
  obtain rfl := hd.locate_injOn_descendants (List.mem_of_mem_filter hp)
    (List.mem_of_mem_filter hq) hplace hqplace
  simp [hmentions] at hqmentions

/-- What a script holds when it has been patched is the map in place of the quoted placeholders. -/
lemma Patches.readText_of_mentions (h : Patches m ps d d') (hp : p ∈ ps)
    (hread : d.readText p = .ok code) (hcode : contains code placeholder = true) :
    d'.readText p = .ok (inject code m) := by
  have hlines : '\r' ∉ code.toList := by
    unfold Disk.readText at hread
    split at hread
    · cases hread
    · split at hread
      · cases hread
        rw [String.toList_ofList]
        exact not_mem_unifyLines _
      · cases hread
  have hinjected : '\r' ∉ (inject code m).toList := by
    intro hmem
    rcases (replaced_inject code m).mem_or_mem hmem with hmem | hmem
    · exact hlines hmem
    · exact m.not_mem_compact hmem
  simp only [Disk.readText, h.patched p hp code hread hcode, readUtf8_writeUtf8,
    unifyLines_of_not_mem hinjected, String.ofList_toList]

/-- The scripts that mention the placeholder when they have been patched are those that had a bare
one. -/
lemma Patches.mentions_eq (hd : d.IsTree) (h : Patches m (emittedScripts d directory) d d')
    (hm : ∀ s ∈ m.texts, contains s placeholder = false) (hp : p ∈ emittedScripts d directory) :
    mentions d' p = mentionsBare d p := by
  cases hread : d.readText p with
  | error e =>
    have hmentions := mentions_of_error hread
    rw [mentions_congr (h.readBytes_of_not_mentions hd hp hmentions), hmentions, mentionsBare,
      holds_of_error _ hread]
  | ok code =>
    rw [mentionsBare, holds_of_readText _ hread]
    by_cases hcode : contains code placeholder = true
    · rw [mentions_of_readText (h.readText_of_mentions hp hread hcode), contains_inject hm]
    · have hmentions : mentions d p = false := by simpa [mentions_of_readText hread] using hcode
      rw [mentions_congr (h.readBytes_of_not_mentions hd hp hmentions), hmentions,
        hasBare_of_not_contains (by simpa using hcode)]

/-- Patching again, by whatever map, lists the same scripts as far as they still mention the
placeholder. -/
lemma Patches.exists_run_again (hd : d.IsTree) {b : Bool}
    (hdirectory : d.isDirectory directory = .ok b)
    (h : Patches m (emittedScripts d directory) d d') (m₂ : RouteMap) :
    ∃ notices d₂, (patch m₂ directory).run d' =
      (.ok ⟨(emittedScripts d directory).filter (mentions d'), notices⟩, d₂) ∧
      Patches m₂ (emittedScripts d directory) d' d₂ := by
  have hagain := exists_run_patch (h.shape.isTree hd)
    ((h.shape.isDirectory_eq directory).trans hdirectory) m₂
  rwa [h.emittedScripts_eq] at hagain

end Scripts

/-! ## What is listed -/

/-- What a patched directory promises: no script mentions the placeholder; the files that were
listed are those that have changed, in order; and patching it again, by whatever map, lists none and
leaves the disk as it is. -/
structure Clears (directory : Path) (d d' : Disk) (files : List Path) : Prop where
  cleared : ∀ p ∈ emittedScripts d' directory, mentions d' p = false
  ordered : files.Pairwise fun p q => namesBefore p.names q.names = true
  changed_iff : ∀ place, d'.node? place ≠ d.node? place ↔ ∃ p ∈ files, d.locate p = .ok place
  again : ∀ m, ∃ notices, (patch m directory).run d' = (.ok ⟨[], notices⟩, d')

section Listed

variable {m : RouteMap} {d d' : Disk} {directory : Path}

/-- A patched directory without bare placeholders is cleared. -/
lemma Patches.clears (hd : d.IsTree) {b : Bool} (hdirectory : d.isDirectory directory = .ok b)
    (hm : ∀ s ∈ m.texts, contains s placeholder = false)
    (h : Patches m (emittedScripts d directory) d d')
    (hbare : ∀ p ∈ emittedScripts d directory, mentionsBare d p = false) :
    Clears directory d d' ((emittedScripts d directory).filter (mentions d)) := by
  have hcleared : ∀ p ∈ emittedScripts d directory, mentions d' p = false := by
    intro p hp
    rw [h.mentions_eq hd hm hp, hbare p hp]
  refine ⟨h.emittedScripts_eq directory ▸ hcleared, ?_, ?_, ?_⟩
  · exact ((d.pairwise_descendants directory).filter _).filter _
  · intro place
    constructor
    · intro hchanged
      by_contra hnone
      push Not at hnone
      apply hchanged
      apply h.kept
      intro p hp hmentions
      exact hnone p (List.mem_filter.2 ⟨hp, hmentions⟩)
    · rintro ⟨p, hp, hplace⟩ hsame
      obtain ⟨hp, hmentions⟩ := List.mem_filter.1 hp
      -- a file that is the same as before would still mention the placeholder
      have hread : d'.readBytes p = d.readBytes p := by
        apply h.shape.readBytes_congr
        intro place' hplace'
        obtain rfl : place = place' := Except.ok.inj (hplace.symm.trans hplace')
        exact hsame
      have hfalse := hcleared p hp
      rw [mentions_congr hread, hmentions] at hfalse
      cases hfalse
  · intro m₂
    obtain ⟨notices, d₂, hrun, hpatches⟩ := h.exists_run_again hd hdirectory m₂
    obtain rfl := hpatches.untouched hcleared
    rw [List.filter_eq_nil_iff.2 (by simpa using hcleared)] at hrun
    exact ⟨notices, hrun⟩

/-- **What patching lists.** On every tree, for every path that can be asked to be a directory and
every map of whose texts none holds the placeholder, patching answers with the scripts that mention
the placeholder, and patching again, by whatever map, with those that had a bare one. So the
directory is cleared exactly if no script has a bare placeholder: a script that has one is listed,
each time, and still mentions the placeholder. -/
theorem patch_clears_iff (hd : d.IsTree) {b : Bool}
    (hdirectory : d.isDirectory directory = .ok b) (m : RouteMap)
    (hm : ∀ s ∈ m.texts, contains s placeholder = false) :
    ∃ files notices d', (patch m directory).run d = (.ok ⟨files, notices⟩, d') ∧
      files = (emittedScripts d directory).filter (mentions d) ∧
      (∀ m₂, ∃ notices₂ d₂, (patch m₂ directory).run d' =
        (.ok ⟨(emittedScripts d directory).filter (mentionsBare d), notices₂⟩, d₂)) ∧
      (Clears directory d d' files ↔
        ∀ p ∈ emittedScripts d directory, mentionsBare d p = false) := by
  obtain ⟨notices, d', hrun, hpatches⟩ := exists_run_patch hd hdirectory m
  refine ⟨_, notices, d', hrun, rfl, ?_, ?_, hpatches.clears hd hdirectory hm⟩
  · intro m₂
    obtain ⟨notices₂, d₂, hrun₂, -⟩ := hpatches.exists_run_again hd hdirectory m₂
    rw [List.filter_congr fun p hp => hpatches.mentions_eq hd hm hp] at hrun₂
    exact ⟨notices₂, d₂, hrun₂⟩
  · intro hclears p hp
    rw [← hpatches.mentions_eq hd hm hp]
    exact hclears.cleared p (hpatches.emittedScripts_eq directory ▸ hp)

end Listed

/-- A disk with one emitted script. -/
def scriptDisk (code : String) : Disk where
  nodes := Table.ofList
    [(["dist"], .directory), (["dist", "a.js"], .file (writeUtf8 code.toList))]
  workingDirectory := []

/-- A script with the placeholder between single quotation marks is listed as it stands. -/
theorem patch_clears_iff_of_single_quotes :
    let m : RouteMap := Table.ofList [("/", ["a.js"])]
    let d := scriptDisk ("const m = '" ++ placeholder ++ "';")
    let directory := Path.ofString "dist"
    ∃ notices, (patch m directory).run d = (.ok ⟨[Path.ofString "dist/a.js"], notices⟩, d) ∧
      ¬ Clears directory d d [Path.ofString "dist/a.js"] := by
  intro m d directory
  obtain ⟨files, notices, d', hrun, -, -, hclears⟩ :=
    patch_clears_iff (show d.IsTree by decide +kernel)
      (show d.isDirectory directory = .ok true by decide +kernel) m (by decide)
  have hpatched : (patch m directory).run d =
      (.ok ⟨[Path.ofString "dist/a.js"], [.chunkPatched "dist/a.js"]⟩, d) :=
    Prod.ext (by decide +kernel) (by decide +kernel)
  rw [hpatched] at hrun
  cases hrun
  refine ⟨_, hpatched, ?_⟩
  rw [hclears]
  decide +kernel

/-! ## What is kept -/

/-- The characters that a script holds when it has been patched. -/
def patchedChars (m : RouteMap) (cs : List Char) : List Char :=
  if occursIn placeholder.toList cs then
    replaceFrom quotedPlaceholder.toList m.toJson.compact.toList 0 (unifyLines cs)
  else cs

section Kept

variable {m : RouteMap} {d d' : Disk} {p directory : Path} {cs : List Char}

/-- A placeholder is read just where one is written. -/
lemma occursIn_unifyLines (cs : List Char) :
    occursIn placeholder.toList (unifyLines cs) = occursIn placeholder.toList cs := by
  rw [Bool.eq_iff_iff, occursIn_iff_infix, occursIn_iff_infix]
  exact infix_unifyLines_iff (by decide) (by decide) (by decide) cs

/-- What a script of a patched directory holds. -/
lemma Patches.readBytes_of_writeUtf8 (hd : d.IsTree)
    (h : Patches m (emittedScripts d directory) d d') (hp : p ∈ emittedScripts d directory)
    (hread : d.readBytes p = .ok (writeUtf8 cs)) :
    d'.readBytes p = .ok (writeUtf8 (patchedChars m cs)) := by
  have hcode : d.readText p = .ok (String.ofList (unifyLines cs)) := by
    simp only [Disk.readText, hread, readUtf8_writeUtf8]
  have hoccurs : contains (String.ofList (unifyLines cs)) placeholder =
      occursIn placeholder.toList cs := by
    rw [contains, String.toList_ofList, occursIn_unifyLines]
  unfold patchedChars
  split
  · rename_i hmentions
    rw [h.patched p hp _ hcode (hoccurs.trans hmentions), inject, String.toList_ofList,
      String.toList_ofList]
  · rename_i hmentions
    rw [h.readBytes_of_not_mentions hd hp, hread]
    rw [mentions_of_readText hcode, hoccurs]
    simpa using hmentions

/-- Nothing but quoted placeholders is replaced exactly if there is no placeholder or no carriage
return. -/
lemma replaced_patchedChars_iff :
    Replaced quotedPlaceholder.toList m.toJson.compact.toList cs (patchedChars m cs) ↔
      '\r' ∉ cs ∨ ¬ placeholder.toList <:+: cs := by
  unfold patchedChars
  by_cases hmentions : placeholder.toList <:+: cs
  · have hoccurs := occursIn_iff_infix.2 hmentions
    rw [if_pos hoccurs]
    have hreplaced : ∀ cs, Replaced quotedPlaceholder.toList m.toJson.compact.toList cs
        (replaceFrom quotedPlaceholder.toList m.toJson.compact.toList 0 cs) :=
      replaced_replaceFrom (by decide) _
    constructor
    · intro h
      refine Or.inl fun hreturn => ?_
      -- the carriage return would still be there, but neither the text that is read nor the JSON
      -- has one
      have hstays := h.mem_of_mem hreturn (by decide)
      rcases (hreplaced (unifyLines cs)).mem_or_mem hstays with hmem | hmem
      · exact not_mem_unifyLines cs hmem
      · exact m.not_mem_compact hmem
    · rintro (hreturn | hnone)
      · rw [unifyLines_of_not_mem hreturn]
        exact hreplaced cs
      · exact absurd hmentions hnone
  · have hoccurs := mt occursIn_iff_infix.1 hmentions
    rw [if_neg hoccurs]
    refine iff_of_true (.none fun hquoted => ?_) (Or.inr hmentions)
    exact hmentions (placeholder_infix_quotedPlaceholder.trans hquoted)

/-- **What patching keeps.** On every tree, for every path that can be asked to be a directory and
every map, patching answers. All places but those of the scripts that mention the placeholder stay
as they are. A script that holds a text has the quoted placeholders replaced, leftmost first, and
everything else kept, exactly if the text has no carriage return or no placeholder at all: where it
has both, line ends are written as they are read, without carriage returns. -/
theorem patch_keepsRest_iff (hd : d.IsTree) {b : Bool}
    (hdirectory : d.isDirectory directory = .ok b) (m : RouteMap) :
    ∃ patched d', (patch m directory).run d = (.ok patched, d') ∧
      (∀ place, (∀ p ∈ emittedScripts d directory, mentions d p = true → d.locate p ≠ .ok place) →
        d'.node? place = d.node? place) ∧
      ∀ p ∈ emittedScripts d directory, ∀ cs, d.readBytes p = .ok (writeUtf8 cs) →
        d'.readBytes p = .ok (writeUtf8 (patchedChars m cs)) ∧
        (Replaced quotedPlaceholder.toList m.toJson.compact.toList cs (patchedChars m cs) ↔
          '\r' ∉ cs ∨ ¬ placeholder.toList <:+: cs) := by
  obtain ⟨notices, d', hrun, hpatches⟩ := exists_run_patch hd hdirectory m
  refine ⟨_, d', hrun, hpatches.kept, ?_⟩
  intro p hp cs hread
  exact ⟨hpatches.readBytes_of_writeUtf8 hd hp hread, replaced_patchedChars_iff⟩

end Kept

/-- A script with carriage returns loses them all, also those far from the placeholder. -/
theorem patch_keepsRest_iff_of_carriage_returns :
    let m : RouteMap := Table.empty
    let code := "a\r\n" ++ quotedPlaceholder ++ "\r\n"
    let d := scriptDisk code
    ∃ patched d', (patch m (Path.ofString "dist")).run d = (.ok patched, d') ∧
      d'.readBytes (Path.ofString "dist/a.js") = .ok (writeUtf8 "a\n\x7b\x7d\n".toList) ∧
      ¬ Replaced quotedPlaceholder.toList m.toJson.compact.toList code.toList
        "a\n\x7b\x7d\n".toList := by
  intro m code d
  obtain ⟨patched, d', hrun, -, hscripts⟩ :=
    patch_keepsRest_iff (show d.IsTree by decide +kernel)
      (show d.isDirectory (Path.ofString "dist") = .ok true by decide +kernel) m
  obtain ⟨hread, hreplaced⟩ := hscripts (Path.ofString "dist/a.js") (by decide +kernel) code.toList
    (by decide +kernel)
  have hchars : patchedChars m code.toList = "a\n\x7b\x7d\n".toList := by decide +kernel
  rw [hchars] at hread hreplaced
  refine ⟨patched, d', hrun, hread, ?_⟩
  rw [hreplaced, ← occursIn_iff_infix]
  decide +kernel

end Emission

end RouteAssets
