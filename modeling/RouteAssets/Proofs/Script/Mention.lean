import RouteAssets.Proofs.Script.Assembly

/-!
# Mentions of a language

The text of the attributes of an element is searched for a **mention** of a language (`IsMention`): the
letters `lang` at the beginning of a word, an equals sign, and between two quotation marks a value that
is not empty and has no such marks. An attribute with another name is a mention if its name ends in a
word of these letters, behind a hyphen or a colon, and so is a part of a quoted value.

* **Values** are read up to the first mark of either kind, exactly where they are given
  (`quotedValue?_eq_some_iff`).
* **Mentions**: the first one is found (`langValue?_eq_some_iff`), and nothing if there is none
  (`langValue?_eq_none_iff`).
* **The front of a mention** is what stands in front of its value. A mention that begins before another
  one ends at the mark in front of the value of the latter, or earlier, so that this value does not
  matter to it (`langValue?_append_opening`).
-/

namespace RouteAssets.Script.Component

open RouteAssets.Text

/-! ## Values -/

/-- A value that is not empty and has no quotation marks. -/
structure IsPlain (value : List Char) : Prop where
  ne_nil : value ≠ []
  noMark : ∀ c ∈ value, ¬ IsMark c

instance (c : Char) : Decidable (IsMark c) :=
  inferInstanceAs (Decidable (c = '\x22' ∨ c = '\x27'))

instance (value : List Char) : Decidable (IsPlain value) :=
  decidable_of_iff (value ≠ [] ∧ value.all (fun c => decide (¬ IsMark c)) = true)
    ⟨fun ⟨h, h'⟩ => ⟨h, by simpa using h'⟩, fun ⟨h, h'⟩ => ⟨h, by simpa using h'⟩⟩

/-- A text gives a plain value: blanks, an equals sign, blanks, and the value between two marks, which
need not be the same. -/
def Gives (value cs : List Char) : Prop :=
  ∃ blanks blanks' mark mark' after,
    cs = blanks ++ '=' :: (blanks' ++ mark :: (value ++ mark' :: after)) ∧
    (∀ c ∈ blanks, isBlank c = true) ∧ (∀ c ∈ blanks', isBlank c = true) ∧
    IsMark mark ∧ IsMark mark' ∧ IsPlain value

/-- The plain value in front of the first mark. -/
def closedValue? (cs : List Char) : Option (List Char) :=
  match cs.span fun c => c != '\x22' && c != '\x27' with
  | ([], _) => none
  | (_, []) => none
  | (value, _ :: _) => some value

/-- The plain value between marks, behind blanks. -/
def openedValue? (cs : List Char) : Option (List Char) :=
  match cs.dropWhile isBlank with
  | mark :: rest => if mark == '\x22' || mark == '\x27' then closedValue? rest else none
  | [] => none

section Values

variable {c mark : Char} {cs xs ys rest value : List Char}

/-- The test for the two quotation marks. -/
lemma isMark_iff : (c == '\x22' || c == '\x27') = true ↔ IsMark c := by
  simp [IsMark]

/-- The test for what is no quotation mark. -/
lemma not_isMark_iff : (c != '\x22' && c != '\x27') = true ↔ ¬ IsMark c := by
  simp [IsMark]

/-- No quotation mark is a blank. -/
lemma IsMark.isBlank_eq_false (h : IsMark mark) : isBlank mark = false := by
  rcases h with rfl | rfl <;> decide

/-- A mark ends a plain value. -/
lemma IsMark.ends (h : IsMark mark) : (mark != '\x22' && mark != '\x27') = false := by
  rw [← Bool.not_eq_true, not_isMark_iff]
  exact fun hnot => hnot h

/-- A plain value is read up to the first mark. -/
lemma closedValue?_eq_some_iff :
    closedValue? cs = some value ↔
      ∃ mark after, cs = value ++ mark :: after ∧ IsMark mark ∧ IsPlain value := by
  unfold closedValue?
  rw [List.span_eq_takeWhile_dropWhile]
  constructor
  · intro h
    split at h
    · cases h
    · cases h
    · rename_i run mark after hne hspan
      obtain rfl := Option.some.inj h
      obtain ⟨hrun, hafter⟩ := Prod.mk.inj hspan
      refine ⟨mark, after, ?_, ?_, hne, fun c hc => ?_⟩
      · rw [← hrun, ← hafter, List.takeWhile_append_dropWhile]
      · have hends := eq_false_of_dropWhile hafter
        by_contra hmark
        cases (not_isMark_iff.2 hmark).symm.trans hends
      · rw [← hrun] at hc
        have hother := List.mem_takeWhile_imp hc
        exact not_isMark_iff.1 hother
  · rintro ⟨mark, after, rfl, hmark, hvalue⟩
    have hplain : ∀ c ∈ value, (c != '\x22' && c != '\x27') = true :=
      fun c hc => not_isMark_iff.2 (hvalue.noMark c hc)
    rw [takeWhile_run hplain hmark.ends, dropWhile_run hplain hmark.ends]
    obtain ⟨c, value, rfl⟩ := List.exists_cons_of_ne_nil hvalue.ne_nil
    rfl

/-- What is behind a mark does not matter to the value in front of it. -/
lemma closedValue?_append_mark (hmark : IsMark mark) (xs rest : List Char) :
    closedValue? (xs ++ mark :: rest) = closedValue? (xs ++ [mark]) := by
  have hends := hmark.ends
  unfold closedValue?
  simp only [List.span_eq_takeWhile_dropWhile]
  obtain ⟨run, hrun, hxs⟩ := exists_eq_run_append (fun c => c != '\x22' && c != '\x27') xs
  rcases hrest : xs.dropWhile fun c => c != '\x22' && c != '\x27' with _ | ⟨c, more⟩
  · rw [hrest, List.append_nil] at hxs
    rw [hxs, takeWhile_run hrun hends, takeWhile_run hrun hends, dropWhile_run hrun hends,
      dropWhile_run hrun hends]
    cases run <;> rfl
  · have hc := eq_false_of_dropWhile hrest
    rw [hrest] at hxs
    rw [hxs, List.append_assoc, List.append_assoc, List.cons_append, List.cons_append,
      takeWhile_run hrun hc, takeWhile_run hrun hc, dropWhile_run hrun hc, dropWhile_run hrun hc]
    cases run <;> rfl

/-- A value is read behind an equals sign. -/
lemma quotedValue?_eq (cs : List Char) :
    quotedValue? cs =
      match cs.dropWhile isBlank with
      | '=' :: rest => openedValue? rest
      | _ => none := rfl

/-- A value between marks is read exactly if it stands there. -/
lemma openedValue?_eq_some_iff :
    openedValue? cs = some value ↔
      ∃ blanks mark mark' after, cs = blanks ++ mark :: (value ++ mark' :: after) ∧
        (∀ c ∈ blanks, isBlank c = true) ∧ IsMark mark ∧ IsMark mark' ∧ IsPlain value := by
  unfold openedValue?
  constructor
  · intro h
    obtain ⟨blanks, hblanks, hcs⟩ := exists_eq_run_append isBlank cs
    split at h
    · rename_i mark rest hrest
      rw [hrest] at hcs
      split at h
      · rename_i hmark
        obtain ⟨mark', after, rfl, hmark', hvalue⟩ := closedValue?_eq_some_iff.1 h
        exact ⟨blanks, mark, mark', after, hcs, hblanks, isMark_iff.1 hmark, hmark', hvalue⟩
      · cases h
    · cases h
  · rintro ⟨blanks, mark, mark', after, rfl, hblanks, hmark, hmark', hvalue⟩
    simp only [dropWhile_run hblanks hmark.isBlank_eq_false, isMark_iff.2 hmark, if_true]
    exact closedValue?_eq_some_iff.2 ⟨mark', after, rfl, hmark', hvalue⟩

/-- A value is read exactly if it is given. -/
lemma quotedValue?_eq_some_iff : quotedValue? cs = some value ↔ Gives value cs := by
  rw [quotedValue?_eq]
  constructor
  · intro h
    obtain ⟨blanks, hblanks, hcs⟩ := exists_eq_run_append isBlank cs
    split at h
    · rename_i rest hrest
      rw [hrest] at hcs
      obtain ⟨blanks', mark, mark', after, rfl, hopened⟩ := openedValue?_eq_some_iff.1 h
      exact ⟨blanks, blanks', mark, mark', after, hcs, hblanks, hopened⟩
    · cases h
  · rintro ⟨blanks, blanks', mark, mark', after, rfl, hblanks, hopened⟩
    rw [dropWhile_run hblanks (by decide)]
    exact openedValue?_eq_some_iff.2 ⟨blanks', mark, mark', after, rfl, hopened⟩

/-- Blanks are skipped up to a letter at the most. -/
lemma dropWhile_append_letter (xs ys : List Char) :
    (xs ++ 'l' :: ys).dropWhile isBlank = xs.dropWhile isBlank ++ 'l' :: ys := by
  have hletter : ('l' :: ys).dropWhile isBlank = 'l' :: ys :=
    List.dropWhile_cons_of_neg (by decide)
  rw [List.dropWhile_append, hletter]
  split
  · rename_i hnil
    rw [List.isEmpty_iff.1 hnil, List.nil_append]
  · rfl

/-- What is behind a mark does not matter to a value that is read from in front of a letter in front
of the mark: it is given before the mark or not at all, as the letter is no mark. -/
lemma openedValue?_append_mark (hmark : IsMark mark) (xs ys rest : List Char) :
    openedValue? (xs ++ 'l' :: (ys ++ mark :: rest)) = openedValue? (xs ++ 'l' :: (ys ++ [mark])) := by
  unfold openedValue?
  rw [dropWhile_append_letter, dropWhile_append_letter]
  cases xs.dropWhile isBlank with
  | nil => rfl
  | cons c more =>
    have hclosed := closedValue?_append_mark hmark (more ++ 'l' :: ys) rest
    rw [List.append_assoc, List.append_assoc, List.cons_append, List.cons_append] at hclosed
    simp only [List.cons_append, hclosed]

/-- The same for a value behind an equals sign, as the letter is none. -/
lemma quotedValue?_append_mark (hmark : IsMark mark) (xs ys rest : List Char) :
    quotedValue? (xs ++ 'l' :: (ys ++ mark :: rest)) = quotedValue? (xs ++ 'l' :: (ys ++ [mark])) := by
  rw [quotedValue?_eq, quotedValue?_eq, dropWhile_append_letter, dropWhile_append_letter]
  cases xs.dropWhile isBlank with
  | nil => rfl
  | cons c more =>
    by_cases hc : c = '='
    · subst hc
      exact openedValue?_append_mark hmark more ys rest
    · simp [hc]

end Values

/-! ## Mentions -/

/-- Behind the beginning of a text the letters `lang` begin a word and give a value. The flag says
that the text follows a character of a word. -/
structure IsMention (afterWord : Bool) (cs before value : List Char) : Prop where
  gives : ∃ after, cs = before ++ ("lang".toList ++ after) ∧ Gives value after
  boundary : (before.getLast?.map isWord).getD afterWord = false

/-- A text mentions a language. -/
def Mentions (cs : List Char) : Prop := ∃ before value, IsMention false cs before value

/-- The value of the first mention in a text. -/
def IsFirstMention (cs value : List Char) : Prop :=
  ∃ before, IsMention false cs before value ∧
    ∀ before' value', IsMention false cs before' value' → before.length ≤ before'.length

/-- The value of a mention at the front of a text. -/
def mentionAt? (afterWord : Bool) (cs : List Char) : Option (List Char) :=
  if !afterWord && "lang".toList.isPrefixOf cs then quotedValue? (cs.drop 4) else none

section Mentions

variable {afterWord : Bool} {c mark : Char} {cs before value : List Char}

/-- The first mention is one at the front, or else the first one behind the first character. -/
lemma langValue?_cons (afterWord : Bool) (c : Char) (cs : List Char) :
    langValue? afterWord (c :: cs) =
      (mentionAt? afterWord (c :: cs)).or (langValue? (isWord c) cs) := by
  rw [langValue?]
  unfold mentionAt?
  cases (if (!afterWord && "lang".toList.isPrefixOf (c :: cs)) = true then
    quotedValue? ((c :: cs).drop 4) else none) <;> rfl

/-- A mention at the front of a text is found exactly if it is there. -/
lemma mentionAt?_eq_some_iff :
    mentionAt? afterWord cs = some value ↔ IsMention afterWord cs [] value := by
  unfold mentionAt?
  constructor
  · intro h
    split at h
    · rename_i hhere
      rw [Bool.and_eq_true, Bool.not_eq_true', List.isPrefixOf_iff_prefix] at hhere
      obtain ⟨hword, after, rfl⟩ := hhere
      exact ⟨⟨after, rfl, quotedValue?_eq_some_iff.1 h⟩, hword⟩
    · cases h
  · rintro ⟨⟨after, rfl, hgives⟩, hword⟩
    have hword' : afterWord = false := hword
    have hspelled : "lang".toList.isPrefixOf ([] ++ ("lang".toList ++ after)) = true :=
      List.isPrefixOf_iff_prefix.2 (List.prefix_append _ after)
    rw [hword', hspelled]
    exact quotedValue?_eq_some_iff.2 hgives

/-- What a text follows, seen from behind it, if it begins with a character. -/
lemma boundary_cons (c : Char) (before : List Char) :
    ((c :: before).getLast?.map isWord).getD afterWord =
      (before.getLast?.map isWord).getD (isWord c) := by
  rw [List.getLast?_cons]
  cases before.getLast? <;> rfl

/-- A mention is one at the front of a text, or one behind its first character. -/
lemma isMention_cons_iff :
    IsMention afterWord (c :: cs) before value ↔
      (before = [] ∧ mentionAt? afterWord (c :: cs) = some value) ∨
        ∃ before', before = c :: before' ∧ IsMention (isWord c) cs before' value := by
  rw [mentionAt?_eq_some_iff]
  cases before with
  | nil => simp
  | cons d before =>
    constructor
    · rintro ⟨⟨after, hcs, hgives⟩, hword⟩
      obtain ⟨rfl, hrest⟩ := List.cons.inj hcs
      exact Or.inr ⟨before, rfl, ⟨after, hrest, hgives⟩, (boundary_cons c before).symm.trans hword⟩
    · rintro (⟨h, -⟩ | ⟨_, h, ⟨after, rfl, hgives⟩, hword⟩)
      · cases h
      · cases h
        exact ⟨⟨after, rfl, hgives⟩, (boundary_cons c before).trans hword⟩

/-- There is no mention in a text without characters. -/
lemma not_isMention_nil : ¬ IsMention afterWord [] before value := by
  rintro ⟨⟨after, h, -⟩, -⟩
  simp at h

/-- **The first mention is found**, with its value. -/
lemma langValue?_eq_some_iff :
    langValue? afterWord cs = some value ↔
      ∃ before, IsMention afterWord cs before value ∧
        ∀ before' value', IsMention afterWord cs before' value' →
          before.length ≤ before'.length := by
  induction cs generalizing afterWord with
  | nil => simp [langValue?, not_isMention_nil]
  | cons c cs ih =>
    rw [langValue?_cons]
    cases hhere : mentionAt? afterWord (c :: cs) with
    | some value' =>
      have hfirst := isMention_cons_iff.2 (Or.inl ⟨rfl, hhere⟩)
      rw [Option.some_or, Option.some_inj]
      constructor
      · rintro rfl
        exact ⟨[], hfirst, fun _ _ _ => Nat.zero_le _⟩
      · rintro ⟨before, hmention, hmin⟩
        obtain rfl := List.eq_nil_of_length_eq_zero (Nat.le_zero.1 (hmin _ _ hfirst))
        exact Option.some.inj ((mentionAt?_eq_some_iff.2 hfirst).symm.trans
          (mentionAt?_eq_some_iff.2 hmention))
    | none =>
      have hlater : ∀ before value, IsMention afterWord (c :: cs) before value ↔
          ∃ before', before = c :: before' ∧ IsMention (isWord c) cs before' value := by
        intro before value
        rw [isMention_cons_iff, hhere]
        simp
      rw [Option.none_or, ih]
      simp only [hlater]
      constructor
      · rintro ⟨before, hmention, hmin⟩
        refine ⟨c :: before, ⟨before, rfl, hmention⟩, ?_⟩
        rintro _ value' ⟨before', rfl, hmention'⟩
        exact Nat.succ_le_succ (hmin before' value' hmention')
      · rintro ⟨_, ⟨before, rfl, hmention⟩, hmin⟩
        refine ⟨before, hmention, fun before' value' hmention' => ?_⟩
        exact Nat.le_of_succ_le_succ (hmin _ value' ⟨before', rfl, hmention'⟩)

/-- Nothing is found exactly if there is no mention. -/
lemma langValue?_eq_none_iff :
    langValue? afterWord cs = none ↔ ∀ before value, ¬ IsMention afterWord cs before value := by
  induction cs generalizing afterWord with
  | nil => simp [langValue?, not_isMention_nil]
  | cons c cs ih =>
    rw [langValue?_cons, Option.or_eq_none_iff, ih]
    constructor
    · rintro ⟨hhere, hlater⟩ before value hmention
      obtain ⟨-, h⟩ | ⟨before', -, h⟩ := isMention_cons_iff.1 hmention
      · cases hhere.symm.trans h
      · exact hlater before' value h
    · intro h
      refine ⟨?_, fun before value hmention => ?_⟩
      · rw [Option.eq_none_iff_forall_ne_some]
        exact fun value hhere => h [] value (isMention_cons_iff.2 (Or.inl ⟨rfl, hhere⟩))
      · exact h (c :: before) value (isMention_cons_iff.2 (Or.inr ⟨before, rfl, hmention⟩))

/-- A text mentions a language exactly if a value is found in it. -/
lemma mentions_iff : Mentions cs ↔ (langValue? false cs).isSome = true := by
  rw [← not_iff_not, Bool.not_eq_true, Option.isSome_eq_false_iff, Option.isNone_iff_eq_none,
    langValue?_eq_none_iff, Mentions]
  simp only [not_exists]

instance (cs : List Char) : Decidable (Mentions cs) := decidable_of_iff _ mentions_iff.symm

/-- Without a mention no value is found. -/
lemma langValue?_eq_none_of_not_mentions (h : ¬ Mentions cs) : langValue? false cs = none := by
  simpa [mentions_iff] using h

/-- A text without the first letter of the name has no mention. -/
lemma langValue?_eq_none_of_not_mem (h : 'l' ∉ cs) : langValue? afterWord cs = none := by
  rw [langValue?_eq_none_iff]
  rintro before value ⟨⟨after, rfl, -⟩, -⟩
  exact h (List.mem_append_right before List.mem_cons_self)

/-! ## The front of a mention -/

/-- The letters of the name. -/
lemma toList_lang : "lang".toList = 'l' :: ['a', 'n', 'g'] := by decide

/-- A mention up to its value, and what follows. -/
def opening (blanks blanks' : List Char) (mark : Char) (rest : List Char) : List Char :=
  'l' :: 'a' :: 'n' :: 'g' :: (blanks ++ '=' :: (blanks' ++ mark :: rest))

/-- What is behind the mark of a mention does not matter to a mention at the front of a text that ends
with it, unless it is this mention itself. -/
lemma mentionAt?_append_opening (hmark : IsMark mark) (c : Char) (cs blanks blanks' rest : List Char) :
    mentionAt? afterWord (c :: cs ++ opening blanks blanks' mark rest) =
      mentionAt? afterWord (c :: cs ++ opening blanks blanks' mark []) := by
  have hspelled : ∀ rest, "lang".toList <+: c :: cs ++ opening blanks blanks' mark rest ↔
      "lang".toList <+: c :: cs := by
    intro rest
    refine ⟨fun h => ?_, fun h => h.trans (List.prefix_append _ _)⟩
    rw [toList_lang] at h ⊢
    obtain ⟨hc, htail⟩ := List.cons_prefix_cons.1 h
    exact List.cons_prefix_cons.2 ⟨hc, prefix_of_prefix_append_cons (by decide) htail⟩
  unfold mentionAt?
  by_cases hhere : "lang".toList <+: c :: cs
  · have hfront : ∀ rest, "lang".toList.isPrefixOf (c :: cs ++ opening blanks blanks' mark rest) =
        true := fun rest => List.isPrefixOf_iff_prefix.2 ((hspelled rest).2 hhere)
    obtain ⟨more, hmore⟩ := hhere
    have hdrop : ∀ rest, (c :: cs ++ opening blanks blanks' mark rest).drop 4 =
        more ++ opening blanks blanks' mark rest := by
      intro rest
      rw [← hmore, List.append_assoc]
      exact List.drop_left' (by decide)
    have hmark' := quotedValue?_append_mark hmark more
      ('a' :: 'n' :: 'g' :: (blanks ++ '=' :: blanks')) rest
    simp only [List.append_assoc, List.cons_append] at hmark'
    rw [hfront, hfront, hdrop, hdrop, opening, opening, hmark']
  · have hfront : ∀ rest, "lang".toList.isPrefixOf (c :: cs ++ opening blanks blanks' mark rest) =
        false := fun rest => by
      rw [← Bool.not_eq_true, List.isPrefixOf_iff_prefix, hspelled]
      exact hhere
    rw [hfront, hfront, Bool.and_false, if_neg Bool.false_ne_true, if_neg Bool.false_ne_true]

section Opening

variable {blanks blanks' rest : List Char} (hblanks : ∀ c ∈ blanks, isBlank c = true)
  (hblanks' : ∀ c ∈ blanks', isBlank c = true) (hmark : IsMark mark)

include hblanks hblanks' hmark

/-- A mention without its value is none. -/
lemma langValue?_opening_nil : langValue? afterWord (opening blanks blanks' mark []) = none := by
  have hletter : ∀ {c}, isBlank c = true → 'l' ≠ c := by
    rintro c hc rfl
    cases hc
  have hvalue : quotedValue? (blanks ++ '=' :: (blanks' ++ [mark])) = none := by
    rw [quotedValue?_eq, dropWhile_run hblanks (by decide)]
    simp only [openedValue?, dropWhile_run hblanks' hmark.isBlank_eq_false, isMark_iff.2 hmark,
      if_true]
    rfl
  have hrest : langValue? (isWord 'l')
      ('a' :: 'n' :: 'g' :: (blanks ++ '=' :: (blanks' ++ [mark]))) = none := by
    apply langValue?_eq_none_of_not_mem
    have hmark' : 'l' ≠ mark := by rcases hmark with rfl | rfl <;> decide
    simp only [List.mem_append, List.mem_cons, List.not_mem_nil, not_or, or_false]
    exact ⟨by decide, by decide, by decide, fun h => hletter (hblanks _ h) rfl, by decide,
      fun h => hletter (hblanks' _ h) rfl, hmark'⟩
  rw [opening, langValue?_cons, hrest, Option.or_none]
  unfold mentionAt?
  split
  · exact hvalue
  · rfl

/-- A mention gives its value. -/
lemma langValue?_opening (hvalue : IsPlain value) (after : List Char) :
    langValue? false (opening blanks blanks' mark (value ++ mark :: after)) = some value := by
  have hhere : mentionAt? false (opening blanks blanks' mark (value ++ mark :: after)) =
      some value := by
    refine mentionAt?_eq_some_iff.2 ⟨⟨_, ?_, blanks, blanks', mark, mark, after, rfl, hblanks,
      hblanks', hmark, hmark, hvalue⟩, rfl⟩
    rw [toList_lang]
    rfl
  rw [opening] at hhere ⊢
  rw [langValue?_cons, hhere, Option.some_or]

/-- **The front of a mention decides.** In a text with a mention the first mention in what stands in
front of its value is found, and if there is none, the mention itself or a later one. -/
lemma langValue?_append_opening (cs rest : List Char) :
    langValue? afterWord (cs ++ opening blanks blanks' mark rest) =
      (langValue? afterWord (cs ++ opening blanks blanks' mark [])).or
        (langValue? ((cs.getLast?.map isWord).getD afterWord) (opening blanks blanks' mark rest)) := by
  induction cs generalizing afterWord with
  | nil =>
    rw [List.nil_append, List.nil_append, langValue?_opening_nil hblanks hblanks' hmark]
    rfl
  | cons c cs ih =>
    rw [boundary_cons, List.cons_append, List.cons_append, langValue?_cons, langValue?_cons, ih,
      Option.or_assoc, ← List.cons_append, ← List.cons_append,
      mentionAt?_append_opening hmark c cs blanks blanks' rest]

end Opening

end Mentions

end RouteAssets.Script.Component
