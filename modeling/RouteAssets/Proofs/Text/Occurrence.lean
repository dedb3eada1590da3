import RouteAssets.Text.Search
import Mathlib.Data.List.Infix

/-!
# Occurrences in texts

* **Occurrence as infix** (`occursIn_iff_infix`, `contains_iff_infix`): the search for a pattern
  succeeds exactly for the texts of which the pattern is a contiguous part.
* **Replacement** (`replaced_replaceFrom`): the first occurrence is replaced, then the first one in
  what follows it, and so on (`Replaced`); everything else stays. There is one way only to do so
  (`Replaced.unique`).
* **Separators** (`infix_append_sealed_iff`): an occurrence does not reach over a character that the
  pattern does not have, so between such characters a replacement makes no new ones
  (`Replaced.not_infix`).
* **Parts** (`replaceFrom_eq_intercalate`): replacing is to put the replacement between the parts of
  a text that are no occurrences.
-/

namespace RouteAssets.Text

/-- A pattern occurs in a list of characters exactly when it is a contiguous part of it. -/
lemma occursIn_iff_infix {pattern cs : List Char} :
    occursIn pattern cs = true ↔ pattern <:+: cs := by
  induction cs with
  | nil => rw [occursIn, List.isEmpty_iff, List.infix_nil]
  | cons c cs ih => rw [occursIn, Bool.or_eq_true, ih, List.isPrefixOf_iff_prefix, List.infix_cons_iff]

/-- A pattern occurs in a text exactly when it is a contiguous part of it. -/
lemma contains_iff_infix {s p : String} : contains s p = true ↔ p.toList <:+: s.toList :=
  occursIn_iff_infix

/-! ## Replacement -/

/-- A text and the text with every occurrence of a pattern replaced. An occurrence counts if none
starts before it and behind the last one that has counted. -/
inductive Replaced (pattern replacement : List Char) : List Char → List Char → Prop
  | none {cs : List Char} (h : ¬ pattern <:+: cs) : Replaced pattern replacement cs cs
  | first {before after result : List Char} (hfirst : ¬ pattern <:+: before ++ pattern.dropLast)
      (h : Replaced pattern replacement after result) :
      Replaced pattern replacement (before ++ (pattern ++ after))
        (before ++ (replacement ++ result))

section Replacement

variable {pattern replacement cs result : List Char}

/-- A character at which no occurrence starts stays in front of what follows it. -/
lemma Replaced.cons {c : Char} (h : Replaced pattern replacement cs result)
    (hc : ¬ pattern <+: c :: cs) : Replaced pattern replacement (c :: cs) (c :: result) := by
  cases h with
  | none h =>
    refine .none fun hinfix => ?_
    rcases List.infix_cons_iff.1 hinfix with hfront | hinfix
    · exact hc hfront
    · exact h hinfix
  | @first before after result hfirst h =>
    refine @Replaced.first pattern replacement (c :: before) after result (fun hinfix => ?_) h
    rw [List.cons_append] at hinfix
    rcases List.infix_cons_iff.1 hinfix with hfront | hinfix
    · -- an occurrence that ends before the last character of the first one would start at `c`
      have hlast : pattern.dropLast <+: pattern ++ after :=
        (List.dropLast_prefix pattern).trans (List.prefix_append pattern after)
      exact hc (hfront.trans (List.cons_prefix_cons.2
        ⟨rfl, (List.prefix_append_right_inj before).2 hlast⟩))
    · exact hfirst hinfix

/-- Characters that belong to an occurrence are passed over. -/
lemma replaceFrom_eq_drop (pattern replacement : List Char) (skip : Nat) (cs : List Char) :
    replaceFrom pattern replacement skip cs = replaceFrom pattern replacement 0 (cs.drop skip) := by
  induction skip generalizing cs with
  | zero => rfl
  | succ skip ih =>
    cases cs with
    | nil => rfl
    | cons c cs => rw [replaceFrom, ih, List.drop_succ_cons]

/-- Occurrences are replaced leftmost first and without overlaps. -/
lemma replaced_replaceFrom (hpattern : pattern ≠ []) (replacement cs : List Char) :
    Replaced pattern replacement cs (replaceFrom pattern replacement 0 cs) := by
  induction hn : cs.length using Nat.strong_induction_on generalizing cs with
  | _ n ih =>
    cases cs with
    | nil =>
      refine .none fun h => hpattern (List.infix_nil.1 h)
    | cons c cs =>
      subst hn
      rw [replaceFrom]
      split
      · rename_i hfront
        obtain ⟨after, hafter⟩ := List.isPrefixOf_iff_prefix.1 hfront
        obtain ⟨p, ps, rfl⟩ := List.exists_cons_of_ne_nil hpattern
        obtain ⟨rfl, rfl⟩ : p = c ∧ ps ++ after = cs := by simpa using hafter
        have hless : after.length < (p :: (ps ++ after)).length := by
          rw [List.length_cons, List.length_append]
          omega
        have hrest := ih after.length hless after rfl
        have hshort : ¬ p :: ps <:+: [] ++ (p :: ps).dropLast := by
          intro h
          have hlength := h.length_le
          rw [List.nil_append, List.length_dropLast, List.length_cons] at hlength
          omega
        rw [replaceFrom_eq_drop, List.length_cons, Nat.add_sub_cancel, List.drop_left]
        exact .first hshort hrest
      · rename_i hfront
        rw [List.isPrefixOf_iff_prefix] at hfront
        exact (ih cs.length (by simp) cs rfl).cons hfront

/-- Of two occurrences that nothing precedes none starts behind the other. -/
lemma eq_nil_of_first {x before after after' : List Char}
    (hfirst : ¬ pattern <:+: before ++ x ++ pattern.dropLast)
    (h : pattern ++ after = x ++ (pattern ++ after')) : x = [] := by
  by_contra hx
  apply hfirst
  have hlast : x ++ pattern.dropLast <+: pattern ++ after := by
    rw [h, List.prefix_append_right_inj]
    exact (List.dropLast_prefix pattern).trans (List.prefix_append pattern after')
  have hfront : pattern <+: x ++ pattern.dropLast := by
    apply List.prefix_of_prefix_length_le (List.prefix_append pattern after) hlast
    have hlength := List.length_pos_of_ne_nil hx
    rw [List.length_append, List.length_dropLast]
    omega
  rw [List.append_assoc]
  exact hfront.isInfix.trans (List.suffix_append before _).isInfix

/-- There is one way only to replace all occurrences. -/
lemma Replaced.unique {result' : List Char} (h : Replaced pattern replacement cs result)
    (h' : Replaced pattern replacement cs result') : result' = result := by
  induction h generalizing result' with
  | @none text hnone =>
    generalize hcs : text = cs' at h'
    cases h' with
    | none => rfl
    | @first before after =>
      exact absurd (List.infix_append' before pattern after) (hcs ▸ hnone)
  | @first before after result hfirst h ih =>
    generalize hcs : before ++ (pattern ++ after) = cs' at h'
    cases h' with
    | none hnone => exact absurd (List.infix_append' before pattern after) (hcs ▸ hnone)
    | @first before' after' result' hfirst' h' =>
      obtain rfl : before = before' := by
        rcases List.append_eq_append_iff.1 hcs with ⟨x, rfl, hx⟩ | ⟨x, rfl, hx⟩
        · simp [eq_nil_of_first hfirst' hx]
        · simp [eq_nil_of_first hfirst hx]
      obtain rfl : after = after' := by simpa using hcs
      rw [ih h']

/-- A text without the pattern stays as it is. -/
lemma Replaced.eq_self (h : Replaced pattern replacement cs result) (hcs : ¬ pattern <:+: cs) :
    result = cs :=
  (Replaced.none hcs).unique h

end Replacement

/-! ## Separators -/

section Separators

variable {pattern cs ds : List Char} {c : Char}

/-- A character that the pattern does not have ends what the pattern can be the beginning of. -/
lemma prefix_of_prefix_append_cons (hc : c ∉ pattern) (h : pattern <+: cs ++ c :: ds) :
    pattern <+: cs := by
  by_cases hlength : pattern.length ≤ cs.length
  · exact List.prefix_of_prefix_length_le h (List.prefix_append cs _) hlength
  · have hall : cs ++ [c] <+: cs ++ c :: ds := by simp
    have hpast : cs ++ [c] <+: pattern := by
      apply List.prefix_of_prefix_length_le hall h
      simp
      omega
    exact absurd (hpast.subset (by simp)) hc

/-- A character that the pattern does not have keeps apart what is on its two sides. -/
lemma infix_append_cons_iff (hpattern : pattern ≠ []) (hc : c ∉ pattern) :
    pattern <:+: cs ++ c :: ds ↔ pattern <:+: cs ∨ pattern <:+: ds := by
  constructor
  · intro h
    induction cs with
    | nil =>
      rw [List.nil_append, List.infix_cons_iff] at h
      rcases h with hfront | h
      · obtain ⟨p, ps, rfl⟩ := List.exists_cons_of_ne_nil hpattern
        rw [List.cons_prefix_cons] at hfront
        simp [hfront.1] at hc
      · exact Or.inr h
    | cons x cs ih =>
      rw [List.cons_append, List.infix_cons_iff] at h
      rcases h with hfront | h
      · exact Or.inl (prefix_of_prefix_append_cons hc hfront).isInfix
      · exact (ih h).imp_left fun hcs => List.infix_cons_iff.2 (Or.inr hcs)
  · rintro (h | h)
    · exact h.trans (List.prefix_append cs _).isInfix
    · exact h.trans ((List.suffix_cons c ds).trans (List.suffix_append cs _)).isInfix

/-- A pattern does not start with a character that it does not have. -/
lemma infix_cons_iff_of_not_mem (hpattern : pattern ≠ []) (hc : c ∉ pattern) :
    pattern <:+: c :: ds ↔ pattern <:+: ds := by
  have h := @infix_append_cons_iff pattern [] ds c hpattern hc
  simpa [hpattern] using h

/-- A pattern does not end with a character that it does not have. -/
lemma infix_concat_iff_of_not_mem (hpattern : pattern ≠ []) (hc : c ∉ pattern) :
    pattern <:+: cs ++ [c] ↔ pattern <:+: cs := by
  simp [infix_append_cons_iff hpattern hc, hpattern]

/-- A separator between two characters that the pattern does not have keeps apart what is on its two
sides. -/
lemma infix_append_sealed_iff {opening closing : Char} {body : List Char} (hpattern : pattern ≠ [])
    (hopening : opening ∉ pattern) (hclosing : closing ∉ pattern) (hbody : ¬ pattern <:+: body) :
    pattern <:+: cs ++ (opening :: (body ++ [closing]) ++ ds) ↔
      pattern <:+: cs ∨ pattern <:+: ds := by
  simp [infix_append_cons_iff hpattern hopening, infix_append_cons_iff hpattern hclosing, hbody]

/-- Between such separators a pattern occurs in one of the parts. -/
lemma infix_intercalate_iff {opening closing : Char} {body : List Char} (hpattern : pattern ≠ [])
    (hopening : opening ∉ pattern) (hclosing : closing ∉ pattern) (hbody : ¬ pattern <:+: body)
    {parts : List (List Char)} :
    pattern <:+: (opening :: (body ++ [closing])).intercalate parts ↔
      ∃ part ∈ parts, pattern <:+: part := by
  induction parts with
  | nil => simp [hpattern]
  | cons part parts ih =>
    cases parts with
    | nil => simp
    | cons part' parts =>
      rw [List.intercalate_cons_cons, List.append_assoc,
        infix_append_sealed_iff hpattern hopening hclosing hbody, ih]
      simp

end Separators

/-! ## Parts -/

section Parts

variable {pattern replacement cs : List Char}

/-- The parts of a text between the occurrences of a pattern, leftmost first and without overlaps.
`skip` counts the characters that still belong to an occurrence. -/
def partsBetween (pattern : List Char) : Nat → List Char → List (List Char)
  | _, [] => [[]]
  | skip + 1, _ :: cs => partsBetween pattern skip cs
  | 0, c :: cs =>
    if pattern.isPrefixOf (c :: cs) then [] :: partsBetween pattern (pattern.length - 1) cs
    else (partsBetween pattern 0 cs).modifyHead (c :: ·)

/-- There is at least one part. -/
lemma partsBetween_ne_nil (pattern : List Char) (skip : Nat) (cs : List Char) :
    partsBetween pattern skip cs ≠ [] := by
  induction cs generalizing skip with
  | nil => simp [partsBetween]
  | cons c cs ih =>
    cases skip with
    | zero =>
      rw [partsBetween]
      split
      · simp
      · simp [ih]
    | succ skip => exact ih skip

/-- Replacing a pattern puts the replacement between the parts. -/
lemma replaceFrom_eq_intercalate (pattern replacement : List Char) (skip : Nat) (cs : List Char) :
    replaceFrom pattern replacement skip cs =
      replacement.intercalate (partsBetween pattern skip cs) := by
  induction cs generalizing skip with
  | nil => simp [replaceFrom, partsBetween]
  | cons c cs ih =>
    cases skip with
    | zero =>
      rw [replaceFrom, partsBetween]
      obtain ⟨part, parts, hparts⟩ :=
        List.exists_cons_of_ne_nil (partsBetween_ne_nil pattern (pattern.length - 1) cs)
      obtain ⟨part', parts', hparts'⟩ :=
        List.exists_cons_of_ne_nil (partsBetween_ne_nil pattern 0 cs)
      split
      · rw [ih, hparts, List.intercalate_cons_cons, List.nil_append]
      · rw [ih, hparts', List.modifyHead_cons]
        cases parts' <;> simp
    | succ skip => exact ih skip

/-- Where the replacement cannot be part of an occurrence and holds none, there are no occurrences
left. -/
lemma Replaced.not_infix {opening closing : Char} {body result : List Char}
    (h : Replaced pattern (opening :: (body ++ [closing])) cs result) (hpattern : pattern ≠ [])
    (hopening : opening ∉ pattern) (hclosing : closing ∉ pattern) (hbody : ¬ pattern <:+: body) :
    ¬ pattern <:+: result := by
  induction h with
  | none h => exact h
  | @first before after result hfirst h ih =>
    rw [infix_append_sealed_iff hpattern hopening hclosing hbody]
    rintro (hbefore | hresult)
    · exact hfirst (hbefore.trans (List.prefix_append before _).isInfix)
    · exact ih hresult

/-- A character that the pattern does not have stays. -/
lemma Replaced.mem_of_mem {c : Char} {result : List Char}
    (h : Replaced pattern replacement cs result) (hc : c ∈ cs) (hpattern : c ∉ pattern) :
    c ∈ result := by
  induction h with
  | none h => exact hc
  | first hfirst h ih =>
    simp only [List.mem_append, hpattern, false_or] at hc ⊢
    rcases hc with hc | hc
    · exact Or.inl hc
    · exact Or.inr (Or.inr (ih hc))

/-- A character of the result is one of the text or of the replacement. -/
lemma Replaced.mem_or_mem {c : Char} {result : List Char}
    (h : Replaced pattern replacement cs result) (hc : c ∈ result) : c ∈ cs ∨ c ∈ replacement := by
  induction h with
  | none h => exact Or.inl hc
  | first hfirst h ih =>
    simp only [List.mem_append] at hc ⊢
    rcases hc with hc | hc | hc
    · exact Or.inl (Or.inl hc)
    · exact Or.inr hc
    · exact (ih hc).imp_left fun hafter => Or.inr (Or.inr hafter)

end Parts

end RouteAssets.Text
