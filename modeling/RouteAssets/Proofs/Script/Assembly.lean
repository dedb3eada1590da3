import RouteAssets.Proofs.Text.Occurrence
import RouteAssets.Proofs.Text.Run
import RouteAssets.Script.Component
import Mathlib.Data.List.Forall2
import Mathlib.Data.List.Infix

/-!
# Components that are put together from script elements

A component is written as an `Assembly`: script elements with some text in front of each and behind
the last. An `Element` has tags in letters of either case, attributes whose quoted values may hold
anything but their own mark, and a body without a closing tag; the `Surrounding` texts have no opening
tag.

* **Tags** are recognised where they are written and nowhere else (`afterOpening_eq_some_iff`,
  `afterClosing_eq_some_iff`). The character that begins a tag does not occur in the rest of it, so no
  tag begins in one part of a component and ends in the next one (`prefix_of_append_eq`).
* **Attributes** end at the first end of a tag that is not quoted (`splitAttributes_eq_some_iff`), a
  **body** in front of the first closing tag (`splitBody_eq_some_iff`).
* **Blocks** are read one behind the other (`blocks_cons`). An element is read as its block
  (`Element.blocks_append`), and from the texts between elements nothing is read
  (`Surrounding.blocks_append`).

So the blocks of a component are those that it was put together from, and its script is their bodies in
order, with a newline between each two (`script_assembled`).
-/

namespace RouteAssets.Script.Component

open RouteAssets.Text

/-! ## How a component is written -/

/-- A text spells a word, in letters of either case. -/
def Spells (word text : List Char) : Prop := List.Forall₂ (fun l c => matchesLetter l c = true) word text

/-- An opening tag begins somewhere in a text: its name stands there, and ends there. -/
def HasOpening (cs : List Char) : Prop :=
  ∃ name after, name ++ after <:+ cs ∧ Spells "<script".toList name ∧ after.head?.any isWord = false

/-- A text is a closing tag. -/
def IsClosing (tag : List Char) : Prop :=
  ∃ name blanks, tag = name ++ (blanks ++ ['>']) ∧ Spells "</script".toList name ∧
    ∀ c ∈ blanks, isBlank c = true

/-- A closing tag stands somewhere in a text. -/
def HasClosing (cs : List Char) : Prop := ∃ tag, IsClosing tag ∧ tag <:+: cs

/-- A character is a quotation mark. -/
def IsMark (c : Char) : Prop := c = '\x22' ∨ c = '\x27'

/-- A text consists of quoted values and of characters that neither quote nor end a tag. -/
inductive IsAttributes : List Char → Prop
  | nil : IsAttributes []
  | plain {c : Char} {cs : List Char} (hc : c ≠ '>' ∧ ¬ IsMark c) (hcs : IsAttributes cs) :
    IsAttributes (c :: cs)
  | quoted {mark : Char} {value cs : List Char} (hmark : IsMark mark) (hvalue : mark ∉ value)
    (hcs : IsAttributes cs) : IsAttributes (mark :: (value ++ mark :: cs))

/-- A script element as it is written. -/
structure Element where
  name : List Char
  attributes : List Char
  body : List Char
  closing : List Char
  spells : Spells "<script".toList name
  isAttributes : IsAttributes attributes
  /-- A blank keeps the attributes apart from the name. -/
  startsBlank : attributes.head?.all isBlank = true
  noClosing : ¬ HasClosing body
  isClosing : IsClosing closing

/-- The text of an element. -/
def Element.text (e : Element) : List Char :=
  e.name ++ (e.attributes ++ '>' :: (e.body ++ e.closing))

/-- The block that an element stands for. -/
def Element.block (e : Element) : Block := { attributes := e.attributes, body := e.body }

/-- A text in front of an element or behind the last one. -/
structure Surrounding where
  text : List Char
  noOpening : ¬ HasOpening text

/-- A component as it is written. -/
structure Assembly where
  parts : List (Surrounding × Element)
  last : Surrounding

/-- The text of some elements, each behind a text of its own, and of what follows. -/
def Assembly.textOf (last : List Char) : List (Surrounding × Element) → List Char
  | [] => last
  | (s, e) :: parts => s.text ++ (e.text ++ textOf last parts)

/-- The text of a component. -/
def Assembly.text (a : Assembly) : List Char := textOf a.last.text a.parts

/-! ## Tags -/

section Tags

variable {l c : Char} {cs word text rest tag : List Char}

/-- The character that begins a tag has no other case. -/
lemma matchesLetter_angle_iff : matchesLetter '<' c = true ↔ c = '<' := by
  have hs : ('<' == 's') = false := by decide
  have hi : ('<' == 'i') = false := by decide
  rw [matchesLetter, hs, hi, Bool.false_and, Bool.false_and, Bool.or_false, Bool.or_false, beq_iff_eq]
  constructor
  · intro h
    by_cases hupper : c.val ≥ 'A'.val ∧ c.val ≤ 'Z'.val
    · -- then it would be a small letter in lower case
      have hval : c.toLower.val = c.val + ('a'.val - 'A'.val) := congrArg Char.val (dif_pos hupper)
      have hlow : 65 ≤ c.val.toNat := UInt32.le_iff_toNat_le.1 hupper.1
      have hhigh : c.val.toNat ≤ 90 := UInt32.le_iff_toNat_le.1 hupper.2
      have hsum : 60 = (c.val.toNat + 32) % 2 ^ 32 := by
        rw [h] at hval
        exact congrArg UInt32.toNat hval
      omega
    · have hself : c.toLower = c := dif_neg hupper
      rw [← h, hself]
  · rintro rfl
    decide

/-- The character that begins a tag is the other case of no letter. -/
lemma eq_of_matchesLetter_angle (h : matchesLetter l '<' = true) : l = '<' := by
  have hlower : Char.toLower '<' = '<' := by decide
  have hs : ('<' == '\u017f') = false := by decide
  have hi : ('<' == '\u0130') = false := by decide
  have hj : ('<' == '\u0131') = false := by decide
  rw [matchesLetter, hlower, hs, hi, hj, Bool.and_false, Bool.or_self, Bool.and_false, Bool.or_false,
    Bool.or_false, beq_iff_eq] at h
  exact h.symm

/-- What spells the name of a tag begins like it. -/
lemma Spells.exists_cons (h : Spells ('<' :: word) text) :
    ∃ tail, text = '<' :: tail ∧ Spells word tail := by
  obtain ⟨c, tail, hc, htail, rfl⟩ := List.forall₂_cons_left_iff.1 h
  exact ⟨tail, by rw [matchesLetter_angle_iff.1 hc], htail⟩

/-- No tag begins in what spells letters. -/
lemma Spells.not_mem (h : Spells word text) (hword : '<' ∉ word) : '<' ∉ text := by
  induction h with
  | nil => simp
  | cons hc htail ih =>
    rw [List.mem_cons, not_or] at hword ⊢
    refine ⟨fun heq => hword.1 ?_, ih hword.2⟩
    rw [← heq] at hc
    exact (eq_of_matchesLetter_angle hc).symm

/-- A word is found in front of a text exactly if it is spelled there. -/
lemma afterFolded_eq_some_iff :
    afterFolded word cs = some rest ↔ ∃ text, Spells word text ∧ cs = text ++ rest := by
  induction word generalizing cs with
  | nil => simp [afterFolded, Spells]
  | cons l word ih =>
    cases cs with
    | nil => simp [afterFolded, Spells]
    | cons c cs =>
      rw [afterFolded]
      constructor
      · intro h
        split at h
        · rename_i hc
          obtain ⟨text, htext, rfl⟩ := ih.1 h
          exact ⟨c :: text, .cons hc htext, rfl⟩
        · cases h
      · rintro ⟨_, hspells, hcs⟩
        obtain ⟨c', text, hc, htext, rfl⟩ := List.forall₂_cons_left_iff.1 hspells
        obtain ⟨rfl, rfl⟩ := List.cons.inj hcs
        rw [if_pos hc]
        exact ih.2 ⟨text, htext, rfl⟩

/-- The name of an opening tag is found exactly if it is spelled there and ends there. -/
lemma afterOpening_eq_some_iff :
    afterOpening cs = some rest ↔
      ∃ name, Spells "<script".toList name ∧ cs = name ++ rest ∧ rest.head?.any isWord = false := by
  rw [afterOpening]
  constructor
  · intro h
    split at h
    · rename_i after hafter
      obtain ⟨name, hname, rfl⟩ := afterFolded_eq_some_iff.1 hafter
      split at h
      · cases h
      · rename_i hend
        obtain rfl := Option.some.inj h
        exact ⟨name, hname, rfl, Bool.eq_false_iff.2 hend⟩
    · cases h
  · rintro ⟨name, hname, rfl, hend⟩
    rw [afterFolded_eq_some_iff.2 ⟨name, hname, rfl⟩]
    simp only [hend, Bool.false_eq_true, if_false]

/-- A closing tag is found in front of a text exactly if it is written there. -/
lemma afterClosing_eq_some_iff :
    afterClosing cs = some rest ↔ ∃ tag, IsClosing tag ∧ cs = tag ++ rest := by
  rw [afterClosing]
  constructor
  · intro h
    split at h
    · rename_i after hafter
      obtain ⟨name, hname, rfl⟩ := afterFolded_eq_some_iff.1 hafter
      obtain ⟨blanks, hblanks, hrun⟩ := exists_eq_run_append isBlank after
      split at h
      · rename_i r hr
        rw [hr, Option.some.inj h] at hrun
        exact ⟨_, ⟨name, blanks, rfl, hname, hblanks⟩, by simp [hrun]⟩
      · cases h
    · cases h
  · rintro ⟨_, ⟨name, blanks, rfl, hname, hblanks⟩, rfl⟩
    have hrun : (blanks ++ '>' :: rest).dropWhile isBlank = '>' :: rest :=
      dropWhile_run hblanks (by decide)
    rw [afterFolded_eq_some_iff.2 ⟨name, hname, List.append_assoc _ _ _⟩]
    simp only [List.append_assoc, List.singleton_append, hrun]

instance (word text : List Char) : Decidable (Spells word text) :=
  decidable_of_iff (afterFolded word text = some [])
    (afterFolded_eq_some_iff.trans (by simp))

instance (tag : List Char) : Decidable (IsClosing tag) :=
  decidable_of_iff (afterClosing tag = some []) (afterClosing_eq_some_iff.trans (by simp))

/-- An opening tag begins somewhere exactly if it is found behind some of the text. -/
lemma hasOpening_iff : HasOpening cs ↔ ∃ t ∈ cs.tails, (afterOpening t).isSome = true := by
  simp only [HasOpening, List.mem_tails, Option.isSome_iff_exists, afterOpening_eq_some_iff]
  constructor
  · rintro ⟨name, after, hsuffix, hname, hend⟩
    exact ⟨_, hsuffix, after, name, hname, rfl, hend⟩
  · rintro ⟨_, hsuffix, after, name, hname, rfl, hend⟩
    exact ⟨name, after, hsuffix, hname, hend⟩

instance (cs : List Char) : Decidable (HasOpening cs) := decidable_of_iff _ hasOpening_iff.symm

/-- A closing tag stands somewhere exactly if it is found behind some of the text. -/
lemma hasClosing_iff : HasClosing cs ↔ ∃ t ∈ cs.tails, (afterClosing t).isSome = true := by
  simp only [HasClosing, List.infix_iff_prefix_suffix, List.mem_tails, Option.isSome_iff_exists,
    afterClosing_eq_some_iff]
  constructor
  · rintro ⟨tag, htag, t, ⟨after, rfl⟩, hsuffix⟩
    exact ⟨_, hsuffix, after, tag, htag, rfl⟩
  · rintro ⟨_, hsuffix, after, tag, htag, rfl⟩
    exact ⟨tag, htag, _, ⟨after, rfl⟩, hsuffix⟩

instance (cs : List Char) : Decidable (HasClosing cs) := decidable_of_iff _ hasClosing_iff.symm

/-- A closing tag begins like its name, and no tag begins inside it. -/
lemma IsClosing.exists_cons (h : IsClosing tag) : ∃ tail, tag = '<' :: tail ∧ '<' ∉ tail := by
  obtain ⟨name, blanks, rfl, hname, hblanks⟩ := h
  obtain ⟨tail, rfl, htail⟩ := hname.exists_cons
  refine ⟨tail ++ (blanks ++ ['>']), rfl, ?_⟩
  have hblank : '<' ∉ blanks := fun hmem => absurd (hblanks _ hmem) (by decide)
  simp [htail.not_mem (by decide), hblank]

/-- What has begun as a tag ends in front of the next tag. -/
lemma prefix_of_append_eq {tail after : List Char} (htail : '<' ∉ tail)
    (hrest : rest = [] ∨ ∃ cs, rest = '<' :: cs) (h : text ++ rest = tail ++ after) :
    tail <+: text := by
  have hprefix : tail <+: text ++ rest := ⟨after, h.symm⟩
  rcases hrest with rfl | ⟨cs, rfl⟩
  · rwa [List.append_nil] at hprefix
  · exact prefix_of_prefix_append_cons htail hprefix

end Tags

/-! ## Attributes and bodies -/

section Elements

variable {cs attributes body closing rest : List Char}

/-- A quoted value ends at its mark. -/
lemma splitAttributes_value {mark : Char} {value : List Char} (hvalue : mark ∉ value)
    (rest : List Char) :
    splitAttributes (some mark) (value ++ mark :: rest) =
      (splitAttributes none rest).map fun p => (value ++ mark :: p.1, p.2) := by
  induction value with
  | nil => simp [splitAttributes]
  | cons c value ih =>
    rw [List.mem_cons, not_or] at hvalue
    have hc : (c == mark) = false := by simpa using Ne.symm hvalue.1
    rw [List.cons_append, splitAttributes, hc]
    simp [ih hvalue.2, Function.comp_def]

/-- Attributes that are read from inside a quoted value are the rest of it and more attributes. -/
lemma isAttributes_of_splitAttributes {quote : Option Char} (hquote : ∀ mark ∈ quote, IsMark mark)
    (h : splitAttributes quote cs = some (attributes, rest)) :
    (match quote with
      | none => IsAttributes attributes
      | some mark => ∃ value more, attributes = value ++ mark :: more ∧ mark ∉ value ∧
          IsAttributes more) ∧
      cs = attributes ++ '>' :: rest := by
  have houtside : ∀ mark ∈ (none : Option Char), IsMark mark := by simp
  induction cs generalizing quote attributes with
  | nil => cases quote <;> cases h
  | cons c cs ih =>
    cases quote with
    | none =>
      rw [splitAttributes] at h
      split at h
      · rename_i hc
        cases h
        exact ⟨.nil, by rw [beq_iff_eq.1 hc, List.nil_append]⟩
      · rename_i hc
        obtain ⟨⟨more, rest⟩, hmore, heq⟩ := Option.map_eq_some_iff.1 h
        cases heq
        by_cases hmark : (c == '\x22' || c == '\x27') = true
        · have hc' : IsMark c := by simpa [IsMark] using hmark
          rw [if_pos hmark] at hmore
          obtain ⟨⟨value, more, rfl, hvalue, hattributes⟩, rfl⟩ :=
            ih (fun _ h => Option.some.inj h ▸ hc') hmore
          exact ⟨.quoted hc' hvalue hattributes, rfl⟩
        · have hc' : ¬ IsMark c := by simpa [IsMark] using hmark
          rw [if_neg hmark] at hmore
          obtain ⟨hattributes, rfl⟩ := ih houtside hmore
          exact ⟨.plain ⟨by simpa using hc, hc'⟩ hattributes, rfl⟩
    | some mark =>
      rw [splitAttributes] at h
      obtain ⟨⟨more, rest⟩, hmore, heq⟩ := Option.map_eq_some_iff.1 h
      cases heq
      by_cases hc : c = mark
      · subst hc
        rw [if_pos (beq_self_eq_true c)] at hmore
        obtain ⟨hattributes, rfl⟩ := ih houtside hmore
        exact ⟨⟨[], more, rfl, List.not_mem_nil, hattributes⟩, rfl⟩
      · rw [if_neg (by simpa using hc)] at hmore
        obtain ⟨⟨value, more, rfl, hvalue, hattributes⟩, rfl⟩ := ih hquote hmore
        exact ⟨⟨c :: value, more, rfl, by simp [hvalue, Ne.symm hc], hattributes⟩, rfl⟩

/-- Attributes end at the first end of a tag that is not quoted. -/
lemma splitAttributes_eq_some_iff :
    splitAttributes none cs = some (attributes, rest) ↔
      IsAttributes attributes ∧ cs = attributes ++ '>' :: rest := by
  refine ⟨fun h => isAttributes_of_splitAttributes (by simp) h, ?_⟩
  rintro ⟨h, rfl⟩
  induction h with
  | nil => simp [splitAttributes]
  | @plain c cs hc hcs ih =>
    have hend : (c == '>') = false := by simpa using hc.1
    have hmark : (c == '\x22' || c == '\x27') = false := by simpa [IsMark] using hc.2
    simp [splitAttributes, hend, hmark, ih]
  | @quoted mark value cs hmark hvalue hcs ih =>
    have hend : (mark == '>') = false := by rcases hmark with rfl | rfl <;> decide
    have hmark' : (mark == '\x22' || mark == '\x27') = true := by simpa [IsMark] using hmark
    simp [splitAttributes, hend, hmark', splitAttributes_value hvalue, ih]

instance (cs : List Char) : Decidable (IsAttributes cs) :=
  decidable_of_iff (splitAttributes none (cs ++ ['>']) = some (cs, []))
    (splitAttributes_eq_some_iff.trans (and_iff_left rfl))

/-- No closing tag begins in a body that has none. -/
lemma afterClosing_eq_none {c : Char} (hbody : ¬ HasClosing (c :: body)) (rest : List Char) :
    afterClosing (c :: (body ++ '<' :: rest)) = none := by
  rw [Option.eq_none_iff_forall_ne_some]
  intro r hr
  obtain ⟨tag, htag, heq⟩ := afterClosing_eq_some_iff.1 hr
  obtain ⟨tail, rfl, htail⟩ := htag.exists_cons
  obtain ⟨rfl, hinside⟩ := List.cons.inj heq
  have hprefix : tail <+: body := prefix_of_append_eq htail (Or.inr ⟨rest, rfl⟩) hinside
  exact hbody ⟨_, htag, ((List.prefix_cons_inj _).2 hprefix).isInfix⟩

/-- A body ends in front of the first closing tag. -/
lemma splitBody_eq_some_iff :
    splitBody cs = some (body, rest) ↔
      ¬ HasClosing body ∧ ∃ closing, IsClosing closing ∧ cs = body ++ (closing ++ rest) := by
  constructor
  · intro h
    induction cs generalizing body with
    | nil => cases h
    | cons c cs ih =>
      rw [splitBody] at h
      split at h
      · rename_i r hr
        cases h
        obtain ⟨closing, hclosing, heq⟩ := afterClosing_eq_some_iff.1 hr
        refine ⟨?_, closing, hclosing, heq⟩
        rintro ⟨tag, htag, hinfix⟩
        obtain ⟨tail, rfl, -⟩ := htag.exists_cons
        simp at hinfix
      · rename_i hnone
        obtain ⟨⟨inner, r⟩, hinner, heq⟩ := Option.map_eq_some_iff.1 h
        cases heq
        obtain ⟨hclear, closing, hclosing, rfl⟩ := ih hinner
        refine ⟨?_, closing, hclosing, rfl⟩
        rintro ⟨tag, htag, hinfix⟩
        rcases List.infix_cons_iff.1 hinfix with ⟨after, hfront⟩ | hinfix
        · have heq : c :: (inner ++ (closing ++ rest)) = tag ++ (after ++ (closing ++ rest)) := by
            rw [← List.append_assoc tag, hfront, List.cons_append]
          rw [afterClosing_eq_some_iff.2 ⟨tag, htag, heq⟩] at hnone
          cases hnone
        · exact hclear ⟨tag, htag, hinfix⟩
  · rintro ⟨hbody, closing, hclosing, rfl⟩
    have hafter : afterClosing (closing ++ rest) = some rest :=
      afterClosing_eq_some_iff.2 ⟨closing, hclosing, rfl⟩
    obtain ⟨tail, rfl, -⟩ := hclosing.exists_cons
    induction body with
    | nil =>
      rw [List.nil_append, List.cons_append, splitBody]
      rw [List.cons_append] at hafter
      rw [hafter]
    | cons c body ih =>
      have hrest : ¬ HasClosing body := fun ⟨tag, htag, h⟩ =>
        hbody ⟨tag, htag, h.trans (List.suffix_cons c body).isInfix⟩
      rw [List.cons_append, List.cons_append, splitBody, afterClosing_eq_none hbody, ← List.cons_append,
        ih hrest]
      rfl

/-- An element is read as its block. -/
lemma Element.blockAt? (e : Element) (rest : List Char) :
    blockAt? (e.text ++ rest) = some (e.block, rest) := by
  have hend : (e.attributes ++ '>' :: (e.body ++ (e.closing ++ rest))).head?.any isWord = false := by
    have hblank := e.startsBlank
    cases hattributes : e.attributes with
    | nil => exact (by decide : isWord '>' = false)
    | cons c cs =>
      rw [hattributes] at hblank
      exact isWord_of_isBlank hblank
  have htext : e.text ++ rest = e.name ++ (e.attributes ++ '>' :: (e.body ++ (e.closing ++ rest))) := by
    simp [Element.text]
  have hname := afterOpening_eq_some_iff.2 ⟨e.name, e.spells, htext, hend⟩
  have hattributes := splitAttributes_eq_some_iff.2
    ⟨e.isAttributes, Eq.refl (e.attributes ++ '>' :: (e.body ++ (e.closing ++ rest)))⟩
  have hbody := splitBody_eq_some_iff.2
    ⟨e.noClosing, e.closing, e.isClosing, Eq.refl (e.body ++ (e.closing ++ rest))⟩
  rw [Component.blockAt?, hname]
  simp only [Option.bind_eq_bind, Option.bind_some, hattributes, hbody]
  rfl

/-- The text of an element begins like an opening tag. -/
lemma Element.exists_cons (e : Element) : ∃ cs, e.text = '<' :: cs := by
  obtain ⟨tail, hname, -⟩ := e.spells.exists_cons
  exact ⟨tail ++ (e.attributes ++ '>' :: (e.body ++ e.closing)), by simp [Element.text, hname]⟩

end Elements

/-! ## Blocks -/

section Blocks

variable {b : Block} {c : Char} {cs rest : List Char} {n m : Nat}

/-- Behind a block there is less of a text. -/
lemma length_lt_of_blockAt? (h : blockAt? cs = some (b, rest)) : rest.length < cs.length := by
  rw [blockAt?] at h
  obtain ⟨r, hr, h⟩ := Option.bind_eq_some_iff.1 h
  obtain ⟨⟨attributes, r'⟩, hr', h⟩ := Option.bind_eq_some_iff.1 h
  obtain ⟨⟨body, r''⟩, hr'', h⟩ := Option.bind_eq_some_iff.1 h
  cases h
  obtain ⟨name, -, rfl, -⟩ := afterOpening_eq_some_iff.1 hr
  obtain ⟨-, rfl⟩ := splitAttributes_eq_some_iff.1 hr'
  obtain ⟨-, closing, -, rfl⟩ := splitBody_eq_some_iff.1 hr''
  simp only [List.length_append, List.length_cons]
  omega

/-- It does not matter how many steps are taken if they are enough. -/
lemma blocksUpTo_congr (hn : cs.length ≤ n) (hm : cs.length ≤ m) :
    blocksUpTo n cs = blocksUpTo m cs := by
  induction n generalizing m cs with
  | zero =>
    rw [List.eq_nil_of_length_eq_zero (Nat.le_zero.1 hn)]
    cases m <;> rfl
  | succ n ih =>
    cases cs with
    | nil => cases m <;> rfl
    | cons c cs =>
      obtain ⟨m, rfl⟩ : ∃ k, m = k + 1 := Nat.exists_eq_succ_of_ne_zero (by rintro rfl; simp at hm)
      rw [List.length_cons, Nat.succ_le_succ_iff] at hn hm
      rw [blocksUpTo, blocksUpTo]
      cases hblock : blockAt? (c :: cs) with
      | none => exact ih hn hm
      | some p =>
        have hlength : p.2.length ≤ cs.length := Nat.lt_succ_iff.1 (length_lt_of_blockAt? hblock)
        exact congrArg _ (ih (hlength.trans hn) (hlength.trans hm))

/-- The blocks of a text are a block at its front and those behind it, or those behind its first
character. -/
lemma blocks_cons (c : Char) (cs : List Char) :
    blocks (c :: cs) =
      match blockAt? (c :: cs) with
      | some (b, rest) => b :: blocks rest
      | none => blocks cs := by
  rw [blocks, List.length_cons, blocksUpTo]
  cases hblock : blockAt? (c :: cs) with
  | none => rfl
  | some p =>
    have hlength : p.2.length ≤ cs.length := Nat.lt_succ_iff.1 (length_lt_of_blockAt? hblock)
    exact congrArg _ (blocksUpTo_congr hlength le_rfl)

/-- The block of an element comes first. -/
lemma Element.blocks_append (e : Element) (rest : List Char) :
    blocks (e.text ++ rest) = e.block :: blocks rest := by
  have hblock := e.blockAt? rest
  obtain ⟨cs, hcs⟩ := e.exists_cons
  rw [hcs, List.cons_append] at hblock ⊢
  rw [blocks_cons, hblock]

/-- No opening tag begins in a text that has none. -/
lemma afterOpening_eq_none {text : List Char} (h : ¬ HasOpening (c :: text))
    (hrest : rest = [] ∨ ∃ cs, rest = '<' :: cs) : afterOpening (c :: (text ++ rest)) = none := by
  rw [Option.eq_none_iff_forall_ne_some]
  intro after hafter
  obtain ⟨name, hname, heq, hend⟩ := afterOpening_eq_some_iff.1 hafter
  obtain ⟨tail, rfl, htail⟩ := hname.exists_cons
  obtain ⟨rfl, hinside⟩ := List.cons.inj heq
  obtain ⟨inner, rfl⟩ := prefix_of_append_eq (htail.not_mem (by decide)) hrest hinside
  rw [List.append_assoc] at hinside
  obtain rfl := List.append_cancel_left hinside
  -- the name ends in the text and is followed there by what follows it
  refine h ⟨'<' :: tail, inner, List.suffix_rfl, hname, ?_⟩
  cases inner with
  | nil => rfl
  | cons d inner => exact hend

/-- Nothing is read from a text without an opening tag. -/
lemma Surrounding.blocks_append (s : Surrounding) (hrest : rest = [] ∨ ∃ cs, rest = '<' :: cs) :
    blocks (s.text ++ rest) = blocks rest := by
  obtain ⟨text, hopening⟩ := s
  induction text with
  | nil => rfl
  | cons c text ih =>
    have hnone : blockAt? (c :: (text ++ rest)) = none := by
      rw [blockAt?, afterOpening_eq_none hopening hrest]
      rfl
    have htext : ¬ HasOpening text := fun ⟨name, after, h, hname⟩ =>
      hopening ⟨name, after, h.trans (List.suffix_cons c text), hname⟩
    rw [List.cons_append, blocks_cons, hnone]
    exact ih htext

end Blocks

/-! ## Components -/

/-- The blocks of a component are those that it is put together from. -/
lemma Assembly.blocks_textOf (last : Surrounding) (parts : List (Surrounding × Element)) :
    blocks (textOf last.text parts) = parts.map fun p => p.2.block := by
  induction parts with
  | nil =>
    have hlast := last.blocks_append (Or.inl rfl)
    rwa [List.append_nil] at hlast
  | cons part parts ih =>
    obtain ⟨s, e⟩ := part
    obtain ⟨cs, hcs⟩ := e.exists_cons
    have hnext : ∃ ds, e.text ++ textOf last.text parts = '<' :: ds := ⟨_, by rw [hcs, List.cons_append]⟩
    rw [textOf, s.blocks_append (Or.inr hnext), e.blocks_append, ih, List.map_cons]

/-- Bodies are joined by newlines. -/
lemma joinBodies_eq : (bs : List Block) → joinBodies bs = ['\n'].intercalate (bs.map Block.body)
  | [] => rfl
  | [_] => by simp [joinBodies]
  | b :: b' :: bs => by
    rw [joinBodies, joinBodies_eq (b' :: bs)]
    · simp
    · simp

/-- **The script of a component is what its elements hold**: their bodies in order, with a newline
between each two, and nothing if it has no elements. Its blocks are those of its elements, with the
attributes as they are written. -/
theorem script_assembled (a : Assembly) :
    (script (String.ofList a.text)).1 =
      String.ofList (['\n'].intercalate (a.parts.map fun p => p.2.body)) ∧
    blocks a.text = a.parts.map (fun p => p.2.block) ∧
    (a.parts = [] → (script (String.ofList a.text)).1 = "") := by
  have hblocks : blocks a.text = a.parts.map fun p => p.2.block := Assembly.blocks_textOf a.last a.parts
  have hscript : (script (String.ofList a.text)).1 =
      String.ofList (['\n'].intercalate (a.parts.map fun p => p.2.body)) := by
    simp only [script, String.toList_ofList, hblocks, joinBodies_eq, List.map_map]
    rfl
  refine ⟨hscript, hblocks, fun hparts => ?_⟩
  rw [hscript, hparts]
  rfl

/-- A component with two scripts: the first one has the end of a tag in a quoted value, the second one
a whole closing tag. -/
theorem script_assembled_of_two :
    ∃ a : Assembly,
      String.ofList a.text =
        "<p/><SCRIPT lang=\"ts\" generic='Set<A>'>a</Script ><b/><script x='</script>'>b<script></script>" ∧
      a.parts ≠ [] ∧ (script (String.ofList a.text)).1 = "a\nb<script>" := by
  let first : Element := {
    name := "<SCRIPT".toList, attributes := " lang=\"ts\" generic='Set<A>'".toList
    body := "a".toList, closing := "</Script >".toList
    spells := by decide +kernel, isAttributes := by decide +kernel, startsBlank := by decide +kernel
    noClosing := by decide +kernel, isClosing := by decide +kernel }
  let second : Element := {
    name := "<script".toList, attributes := " x='</script>'".toList
    body := "b<script>".toList, closing := "</script>".toList
    spells := by decide +kernel, isAttributes := by decide +kernel, startsBlank := by decide +kernel
    noClosing := by decide +kernel, isClosing := by decide +kernel }
  let a : Assembly := {
    parts := [({ text := "<p/>".toList, noOpening := by decide +kernel }, first),
      ({ text := "<b/>".toList, noOpening := by decide +kernel }, second)]
    last := { text := [], noOpening := by decide +kernel } }
  refine ⟨a, by decide +kernel, List.cons_ne_nil _ _, ?_⟩
  rw [(script_assembled a).1]
  decide +kernel

end RouteAssets.Script.Component
