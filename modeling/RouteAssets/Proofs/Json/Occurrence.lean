import RouteAssets.Proofs.Json.RoundTrip
import RouteAssets.Proofs.Text.Occurrence

/-!
# Words in written JSON

A word of capital letters and underscores occurs in a value on one line only where it occurs in one
of the strings of the value (`exists_hasText_of_infix`): nothing else that is written has capital
letters, not the escapes either, and every string stands between its marks.
-/

namespace RouteAssets

open RouteAssets.Text

/-! ## Escapes -/

/-- Where characters are written as they are or by others that the pattern does not have, the
pattern is the beginning of what is written only if it is one of the text. -/
lemma Text.prefix_of_prefix_flatMap {f : Char → List Char} {pattern cs : List Char}
    (hf : ∀ c, f c = [c] ∨ f c ≠ [] ∧ ∀ d ∈ f c, d ∉ pattern) (h : pattern <+: cs.flatMap f) :
    pattern <+: cs := by
  induction pattern generalizing cs with
  | nil => simp
  | cons p ps ih =>
    cases cs with
    | nil => simp at h
    | cons c cs =>
      rw [List.flatMap_cons] at h
      rcases hf c with hc | ⟨hne, hescape⟩
      · rw [hc, List.singleton_append, List.cons_prefix_cons] at h
        apply List.cons_prefix_cons.2 ⟨h.1, ih _ h.2⟩
        intro c'
        apply (hf c').imp_right
        rintro ⟨hne, hescape⟩
        exact ⟨hne, fun d hd hp => hescape d hd (List.mem_cons_of_mem p hp)⟩
      · obtain ⟨d, ds, hd⟩ := List.exists_cons_of_ne_nil hne
        rw [hd, List.cons_append, List.cons_prefix_cons] at h
        exact absurd (List.mem_cons.2 (Or.inl h.1.symm)) (hescape d (by simp [hd]))

/-- Such a pattern occurs in what is written only if it occurs in the text. -/
lemma Text.infix_of_infix_flatMap {f : Char → List Char} {pattern cs : List Char}
    (hpattern : pattern ≠ []) (hf : ∀ c, f c = [c] ∨ f c ≠ [] ∧ ∀ d ∈ f c, d ∉ pattern)
    (h : pattern <:+: cs.flatMap f) : pattern <:+: cs := by
  have hskip : ∀ ds rest : List Char, (∀ d ∈ ds, d ∉ pattern) → pattern <:+: ds ++ rest →
      pattern <:+: rest := by
    intro ds rest hds hinfix
    induction ds with
    | nil => exact hinfix
    | cons d ds ih =>
      obtain ⟨hd, hds⟩ := List.forall_mem_cons.1 hds
      exact ih hds ((infix_cons_iff_of_not_mem hpattern hd).1 hinfix)
  induction cs with
  | nil => simp [hpattern] at h
  | cons c cs ih =>
    rw [List.flatMap_cons] at h
    apply List.infix_cons_iff.2
    rcases hf c with hc | ⟨-, hescape⟩
    · rw [hc, List.singleton_append, List.infix_cons_iff] at h
      apply h.imp _ ih
      intro hfront
      apply prefix_of_prefix_flatMap hf
      rwa [List.flatMap_cons, hc]
    · exact Or.inr (ih (hskip _ _ hescape h))

namespace Json

/-- Capital letters and underscores. -/
def isCapital (c : Char) : Bool := c.isUpper || c == '_'

/-- An escaped unit has no capital letters. -/
lemma isCapital_of_mem_unitEscape {n : Nat} (hn : n < 0x10000) :
    ∀ d ∈ unitEscape n, isCapital d = false := by
  have hdigit : ∀ k < 16, isCapital (Nat.digitChar k) = false := by decide
  rw [unitEscape, hexDigits_four hn]
  simp only [List.forall_mem_cons]
  exact ⟨by decide, by decide, hdigit _ (by omega), hdigit _ (by omega), hdigit _ (by omega),
    hdigit _ (by omega), by simp⟩

/-- A character is written as it is or without capital letters. -/
lemma IsWrittenAs.eq_or {c : Char} {t : List Char} (h : IsWrittenAs c t) :
    t = [c] ∨ t ≠ [] ∧ ∀ d ∈ t, isCapital d = false := by
  have hmax : c.toNat < 0x110000 := by
    have hvalid : c.toNat < 0xd800 ∨ 0xdfff < c.toNat ∧ c.toNat < 0x110000 := c.valid
    omega
  cases h with
  | @escape e hne he =>
    have hletter : isCapital e = false := by
      unfold escapeOf? at he
      split at he
      case h_9 => cases he
      all_goals rfl
    refine Or.inr ⟨by simp, ?_⟩
    simp only [List.forall_mem_cons]
    exact ⟨by decide, hletter, by simp⟩
  | plain => exact Or.inl rfl
  | unit hc => exact Or.inr ⟨List.cons_ne_nil _ _, isCapital_of_mem_unitEscape hc⟩
  | pair hc =>
    refine Or.inr ⟨List.cons_ne_nil _ _, ?_⟩
    intro d hd
    rcases List.mem_append.1 hd with hd | hd
    · exact isCapital_of_mem_unitEscape (by omega) d hd
    · exact isCapital_of_mem_unitEscape (by omega) d hd

/-! ## Values -/

/-- A word of capital letters and underscores. -/
structure IsCapitals (word : List Char) : Prop where
  ne_nil : word ≠ []
  isCapital : ∀ c ∈ word, isCapital c = true

section Words

variable {word : List Char}

/-- Other characters do not occur in such a word. -/
lemma IsCapitals.not_mem (hword : IsCapitals word) {c : Char} (hc : Json.isCapital c = false) :
    c ∉ word := by
  intro hmem
  simp [hword.isCapital c hmem] at hc

/-- A word in a written string is one in the string. -/
lemma infix_of_infix_writtenString (hword : IsCapitals word) {s : String}
    (h : word <:+: writtenString s) : word <:+: s.toList := by
  have hmark : '\x22' ∉ word := hword.not_mem (by decide)
  rw [writtenString, infix_cons_iff_of_not_mem hword.ne_nil hmark,
    infix_concat_iff_of_not_mem hword.ne_nil hmark] at h
  apply infix_of_infix_flatMap hword.ne_nil _ h
  intro c
  apply (isWrittenAs c).eq_or.imp_right
  rintro ⟨hc, hcapital⟩
  exact ⟨hc, fun d hd => hword.not_mem (hcapital d hd)⟩

/-- On one line the texts of items are joined by commas and blanks. -/
lemma Layout.container_line (level : Nat) (opening closing : Char) (ts : List (List Char)) :
    Layout.line.container level opening closing ts =
      opening :: ([',', ' '].intercalate ts ++ [closing]) := by
  have hjoin : ∀ (ts : List (List Char)) (t : List Char),
      [',', ' '].intercalate (t :: ts) = t ++ ts.flatMap ([',', ' '] ++ ·) := by
    intro ts
    induction ts with
    | nil => simp
    | cons u ts ih =>
      intro t
      rw [List.intercalate_cons_cons, ih]
      simp
  cases ts with
  | nil => rfl
  | cons t ts => simp [container, start, between, hjoin]

/-- A word in a container on one line is one in the text of an item. -/
lemma Layout.exists_of_infix_container (hword : IsCapitals word) {level : Nat}
    {opening closing : Char} (hopening : isCapital opening = false)
    (hclosing : isCapital closing = false) {ts : List (List Char)}
    (h : word <:+: Layout.line.container level opening closing ts) : ∃ t ∈ ts, word <:+: t := by
  rw [Layout.container_line, infix_cons_iff_of_not_mem hword.ne_nil (hword.not_mem hopening),
    infix_concat_iff_of_not_mem hword.ne_nil (hword.not_mem hclosing)] at h
  have hbody : ¬ word <:+: [] := by simpa using hword.ne_nil
  exact (infix_intercalate_iff hword.ne_nil (hword.not_mem (by decide))
    (hword.not_mem (by decide)) hbody).1 h

/-- A string is one of those in a value, the names of members among them. -/
inductive HasText (s : String) : Json → Prop
  | here : HasText s (string s)
  | item {xs : List Json} {x : Json} (hx : x ∈ xs) (h : HasText s x) : HasText s (array xs)
  | name {ms : List (String × Json)} {x : Json} (hm : (s, x) ∈ ms) : HasText s (object ms)
  | member {ms : List (String × Json)} {m : String × Json} (hm : m ∈ ms) (h : HasText s m.2) :
    HasText s (object ms)

/-- **Words come from strings.** A word that occurs in a value on one line occurs in one of its
strings. -/
lemma exists_hasText_of_infix (hword : IsCapitals word) {j : Json} (hj : IsPlain j) {level : Nat}
    (h : word <:+: written .line level j) : ∃ s, HasText s j ∧ word <:+: s.toList := by
  -- the words of the values that are no strings are in small letters
  have hsmall : ∀ t : List Char, (∀ c ∈ t, Json.isCapital c = false) → ¬ word <:+: t := by
    intro t ht hoccurs
    obtain ⟨c, cs, rfl⟩ := List.exists_cons_of_ne_nil hword.ne_nil
    exact hword.not_mem (ht c (hoccurs.subset (by simp))) (by simp)
  induction hj generalizing level with
  | null => exact absurd h (hsmall "null".toList (by simp [Json.isCapital]))
  | bool b =>
    cases b with
    | false => exact absurd h (hsmall "false".toList (by simp [Json.isCapital]))
    | true => exact absurd h (hsmall "true".toList (by simp [Json.isCapital]))
  | string s => exact ⟨s, .here, infix_of_infix_writtenString hword h⟩
  | @array xs hxs ih =>
    rw [written_array] at h
    obtain ⟨t, ht, h⟩ := Layout.exists_of_infix_container hword (by decide) (by decide) h
    obtain ⟨x, hx, rfl⟩ := List.mem_map.1 ht
    obtain ⟨s, hs, hinfix⟩ := ih x hx h
    exact ⟨s, .item hx hs, hinfix⟩
  | @object ms hnames hms ih =>
    rw [written_object] at h
    obtain ⟨t, ht, h⟩ := Layout.exists_of_infix_container hword (by decide) (by decide) h
    obtain ⟨m, hm, rfl⟩ := List.mem_map.1 ht
    rw [writtenMember, infix_append_cons_iff hword.ne_nil (hword.not_mem (by decide)),
      infix_cons_iff_of_not_mem hword.ne_nil (hword.not_mem (by decide))] at h
    rcases h with h | h
    · exact ⟨m.1, .name hm, infix_of_infix_writtenString hword h⟩
    · obtain ⟨s, hs, hinfix⟩ := ih m hm h
      exact ⟨s, .member hm hs, hinfix⟩

end Words

end Json

end RouteAssets
