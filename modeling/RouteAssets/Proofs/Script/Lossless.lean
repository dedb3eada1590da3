import RouteAssets.Script.Lexeme
import RouteAssets.Proofs.Script.Walk

/-!
# Nothing is lost while reading

A rule is **lossless** (`Rule.Lossless`) when the text before a position is made of the tokens that
the rule reads, each behind its gap, and of the text at the position where the rule stops. Every way
of combining rules keeps this; so do the rules that replace a tree by a larger one
(`Rule.Extends`). A splitting function is exact (`Splits`) when what it takes and what it leaves
make up the text that it was given.

Both are classes: the instances follow the definitions of the rules, and a rule that is written with
combinators alone is lossless without further argument.
-/

namespace RouteAssets.Script

open RouteAssets.Text

/-! ## Source text -/

/-- The text of a token behind the blanks and comments before it. -/
def Token.source (u : Token) : List Char := u.gap.toList ++ u.text.toList

/-- The text of some sibling trees, with the gap before the first token. -/
def Tree.sourceOf (ts : List Tree) : List Char := (Tree.tokensOf ts).flatMap Token.source

/-- The text in front of a reader, with the gap that has been split off. -/
def Cursor.remaining (c : Cursor) : List Char := c.gap ++ c.rest

namespace Tree

@[simp] lemma sourceOf_nil : sourceOf [] = [] := rfl

/-- The text of some siblings in front of others. -/
@[simp] lemma sourceOf_append (ts us : List Tree) :
    sourceOf (ts ++ us) = sourceOf ts ++ sourceOf us := by
  rw [sourceOf, tokensOf_append, List.flatMap_append]
  rfl

/-- The text of a node is that of its children. -/
@[simp] lemma sourceOf_node (k : NodeKind) (ts : List Tree) : sourceOf [node k ts] = sourceOf ts := by
  simp only [sourceOf, tokensOf, tokens, List.append_nil]

/-- The text of a first tree in front of its siblings. -/
lemma sourceOf_cons (t : Tree) (ts : List Tree) : sourceOf (t :: ts) = sourceOf [t] ++ sourceOf ts :=
  sourceOf_append [t] ts

/-- The text of a token. -/
@[simp] lemma sourceOf_leaf (u : Token) : sourceOf [leaf u] = u.source := by
  simp [sourceOf, tokensOf, tokens]

end Tree

/-! ## Splitting functions -/

/-- What is taken and what is left make up the text. -/
class Splits (split : List Char → Option (List Char × List Char)) : Prop where
  eq_append : ∀ {cs taken rest}, split cs = some (taken, rest) → cs = taken ++ rest

/-- Splitting a gap loses nothing: what was taken before, then the text. -/
lemma splitGapFrom_eq_append {mode : GapMode} {acc cs taken rest : List Char}
    (h : splitGapFrom mode acc cs = some (taken, rest)) : acc.reverse ++ cs = taken ++ rest := by
  fun_induction splitGapFrom mode acc cs <;> simp_all

/-- A gap and what follows it make up the text. -/
lemma splitGap_append (cs : List Char) : (splitGap cs).1 ++ (splitGap cs).2 = cs := by
  unfold splitGap
  rcases h : splitGapFrom .plain [] cs with _ | ⟨gap, rest⟩
  · rfl
  · exact (splitGapFrom_eq_append h).symm

namespace Cursor

/-- At the start of a script all its text is in front of the reader. -/
@[simp] lemma remaining_start (d : Dialect) (cs : List Char) : (start d cs).remaining = cs :=
  splitGap_append cs

/-- Behind a token the text that it leaves is in front of the reader. -/
@[simp] lemma remaining_after (c : Cursor) (taken cs : List Char) :
    (c.after taken cs).remaining = cs := splitGap_append cs

/-- Putting the gap back does not change the text in front of the reader. -/
@[simp] lemma remaining_unskipped (c : Cursor) : c.unskipped.remaining = c.remaining := rfl

/-- Neither does skipping a comment. -/
@[simp] lemma remaining_afterLineComment (c : Cursor) :
    c.afterLineComment.remaining = c.remaining := by
  have hafter := remaining_after c (c.rest.takeWhile fun ch => !isLineEnd ch)
    (c.rest.dropWhile fun ch => !isLineEnd ch)
  unfold afterLineComment
  simp only [List.span_eq_takeWhile_dropWhile, remaining] at hafter ⊢
  rw [List.append_assoc, hafter, List.append_assoc, List.takeWhile_append_dropWhile]

/-- A word and what follows it make up the text, from inside an escape too. -/
lemma splitWordFrom_append (n : Nat) (cs : List Char) :
    (splitWordFrom n cs).1 ++ (splitWordFrom n cs).2 = cs := by
  fun_induction splitWordFrom n cs <;> simp_all

/-- A word and what follows it make up the text. -/
lemma splitWord_append (cs : List Char) : (splitWord cs).1 ++ (splitWord cs).2 = cs := by
  unfold splitWord
  split
  · rfl
  · split
    · exact splitWordFrom_append 0 _
    · rfl

end Cursor

/-! ## Lossless rules -/

namespace Rule

/-- The text before a position is made of the tokens that are read and the text behind them. -/
class Lossless (r : Rule) : Prop where
  remaining_eq : ∀ {c ts c'}, r c = some (ts, c') → c.remaining = Tree.sourceOf ts ++ c'.remaining

/-- Each of some rules is lossless. -/
class AllLossless (rs : List Rule) : Prop where
  lossless : ∀ r ∈ rs, Lossless r

/-- What is read replaces a tree that was read before: its text goes on with what is read now. -/
class Extends (t : Tree) (r : Rule) : Prop where
  remaining_eq : ∀ {c ts c'}, r c = some (ts, c') →
    ∃ more, Tree.sourceOf ts = Tree.sourceOf [t] ++ more ∧ c.remaining = more ++ c'.remaining

/-- Each of some rules extends a tree. -/
class AllExtend (t : Tree) (rs : List Rule) : Prop where
  extends_ : ∀ r ∈ rs, Extends t r

section Lists

instance : AllLossless [] := ⟨by simp⟩

instance (r : Rule) (rs : List Rule) [h : Lossless r] [hs : AllLossless rs] :
    AllLossless (r :: rs) := ⟨List.forall_mem_cons.2 ⟨h, hs.lossless⟩⟩

instance (t : Tree) : AllExtend t [] := ⟨by simp⟩

instance (t : Tree) (r : Rule) (rs : List Rule) [h : Extends t r] [hs : AllExtend t rs] :
    AllExtend t (r :: rs) := ⟨List.forall_mem_cons.2 ⟨h, hs.extends_⟩⟩

end Lists

section Combinators

variable {r : Rule} {rs : List Rule}

instance : Lossless nothing := ⟨by
  intro c ts c' h
  simp only [nothing, Option.some.injEq, Prod.mk.injEq] at h
  obtain ⟨rfl, rfl⟩ := h
  rfl⟩

instance : Lossless fail := ⟨by simp [fail]⟩

/-- Rules after one another add to what has been read. -/
lemma seqOnto_remaining (hs : ∀ r ∈ rs, Lossless r) {read ts : List Tree} {c c' : Cursor}
    (h : seqOnto read rs c = some (ts, c')) :
    ∃ new, ts = read ++ new ∧ c.remaining = Tree.sourceOf new ++ c'.remaining := by
  induction rs generalizing read c with
  | nil =>
    simp only [seqOnto_nil, Option.some.injEq, Prod.mk.injEq] at h
    obtain ⟨rfl, rfl⟩ := h
    exact ⟨[], by simp⟩
  | cons r rs ih =>
    obtain ⟨hr, hrs⟩ := List.forall_mem_cons.1 hs
    rw [seqOnto] at h
    split at h
    · cases h
    · rename_i us c₁ hread
      obtain ⟨new, rfl, hrest⟩ := ih hrs h
      refine ⟨us ++ new, by simp, ?_⟩
      rw [hr.remaining_eq hread, hrest, Tree.sourceOf_append, List.append_assoc]

instance [hs : AllLossless rs] : Lossless (seq rs) := ⟨by
  intro c ts c' h
  obtain ⟨new, rfl, hnew⟩ := seqOnto_remaining hs.lossless h
  exact hnew⟩

/-- A choice answers as one of its rules. -/
lemma exists_of_alt {c : Cursor} {found : List Tree × Cursor} (h : alt rs c = some found) :
    ∃ r ∈ rs, r c = some found := by
  induction rs with
  | nil => cases h
  | cons r rs ih =>
    rw [alt] at h
    split at h
    · rename_i hr
      exact ⟨r, List.mem_cons_self, hr.trans h⟩
    · obtain ⟨r', hmem, hr'⟩ := ih h
      exact ⟨r', List.mem_cons_of_mem r hmem, hr'⟩

instance [hs : AllLossless rs] : Lossless (alt rs) := ⟨by
  intro c ts c' h
  obtain ⟨r, hmem, hr⟩ := exists_of_alt h
  exact (hs.lossless r hmem).remaining_eq hr⟩

instance [hr : Lossless r] : Lossless (opt r) := ⟨by
  intro c ts c' h
  rw [opt] at h
  split at h
  · rename_i hread
    exact hr.remaining_eq (hread.trans h)
  · simp only [Option.some.injEq, Prod.mk.injEq] at h
    obtain ⟨rfl, rfl⟩ := h
    rfl⟩

/-- Rounds of a rule add to what has been read. -/
lemma repeatUpTo_remaining (hr : Lossless r) {n : Nat} {read ts : List Tree} {c c' : Cursor}
    (h : repeatUpTo r n read c = some (ts, c')) :
    ∃ new, ts = read ++ new ∧ c.remaining = Tree.sourceOf new ++ c'.remaining := by
  induction n generalizing read c with
  | zero =>
    simp only [repeatUpTo, Option.some.injEq, Prod.mk.injEq] at h
    obtain ⟨rfl, rfl⟩ := h
    exact ⟨[], by simp⟩
  | succ n ih =>
    rw [repeatUpTo] at h
    split at h
    · simp only [Option.some.injEq, Prod.mk.injEq] at h
      obtain ⟨rfl, rfl⟩ := h
      exact ⟨[], by simp⟩
    · rename_i us c₁ hread
      obtain ⟨new, rfl, hrest⟩ := ih h
      refine ⟨us ++ new, by simp, ?_⟩
      rw [hr.remaining_eq hread, hrest, Tree.sourceOf_append, List.append_assoc]

instance [hr : Lossless r] : Lossless (many r) := ⟨by
  intro c ts c' h
  obtain ⟨new, rfl, hnew⟩ := repeatUpTo_remaining hr h
  exact hnew⟩

instance (k : NodeKind) [hr : Lossless r] : Lossless (node k r) := ⟨by
  intro c ts c' h
  rw [node] at h
  split at h
  · cases h
  · rename_i us c₁ hread
    simp only [Option.some.injEq, Prod.mk.injEq] at h
    obtain ⟨rfl, rfl⟩ := h
    rw [Tree.sourceOf_node]
    exact hr.remaining_eq hread⟩

/-- A rule that reads nothing and stays where it is loses nothing. -/
lemma lossless_of_stays (h : ∀ c ts c', r c = some (ts, c') → ts = [] ∧ c' = c) : Lossless r := ⟨by
  intro c ts c' hr
  obtain ⟨rfl, rfl⟩ := h c ts c' hr
  rfl⟩

instance (p : Cursor → Bool) : Lossless (guard p) := lossless_of_stays fun c ts c' h => by
  simp only [guard, Option.ite_none_right_eq_some, Option.some.injEq, Prod.mk.injEq] at h
  exact ⟨h.2.1.symm, h.2.2.symm⟩

instance : Lossless (ahead r) := lossless_of_stays fun c ts c' h => by
  obtain ⟨-, -, h⟩ := Option.map_eq_some_iff.1 h
  simp only [Prod.mk.injEq] at h
  exact ⟨h.1.symm, h.2.symm⟩

instance : Lossless (notAhead r) := lossless_of_stays fun c ts c' h => by
  rw [notAhead] at h
  split at h
  · cases h
  · simp only [Option.some.injEq, Prod.mk.injEq] at h
    exact ⟨h.1.symm, h.2.symm⟩

/-- A rule that is picked by position is lossless when each of the rules it may be is. -/
lemma lossless_select {f : Cursor → Rule} (h : ∀ c, Lossless (f c)) : Lossless (select f) :=
  ⟨fun hr => (h _).remaining_eq hr⟩

instance [hr : Lossless r] : Lossless (raw r) := ⟨by
  intro c ts c' h
  rw [← Cursor.remaining_unskipped c]
  exact hr.remaining_eq h⟩

end Combinators

/-! ## Tokens -/

section Tokens

/-- A token that is cut off the text loses nothing. -/
lemma emit_remaining {k : TokenKind} {taken rest : List Char} {c c' : Cursor} {ts : List Tree}
    (hrest : c.rest = taken ++ rest) (h : emit k taken rest c = some (ts, c')) :
    c.remaining = Tree.sourceOf ts ++ c'.remaining := by
  simp only [emit, Option.some.injEq, Prod.mk.injEq] at h
  obtain ⟨rfl, rfl⟩ := h
  simp [Cursor.remaining, hrest, Token.source, -Cursor.remaining_after, splitGap_append, Cursor.after]

instance (k : TokenKind) (split : List Char → Option (List Char × List Char)) [hs : Splits split] :
    Lossless (lexeme k split) := ⟨by
  intro c ts c' h
  rw [lexeme] at h
  split at h
  · cases h
  · rename_i hsplit
    exact emit_remaining (hs.eq_append hsplit) h⟩

instance (s : String) : Lossless (sym s) := ⟨by
  intro c ts c' h
  rw [sym] at h
  split at h
  · rename_i hs
    refine emit_remaining ?_ h
    obtain ⟨rest, hrest⟩ := List.isPrefixOf_iff_prefix.1 hs
    rw [← hrest, ← String.length_toList, List.drop_left]
  · cases h⟩

instance (k : TokenKind) (p : String → Bool) : Lossless (wordThat k p) := ⟨by
  intro c ts c' h
  rw [wordThat] at h
  split at h
  · cases h
  · rename_i w rest hne hword
    have happend := Cursor.splitWord_append c.rest
    rw [hword] at happend
    split at h
    · exact emit_remaining happend.symm h
    · cases h⟩

instance (k : TokenKind) : Lossless (anyWord k) := inferInstanceAs (Lossless (wordThat k _))

instance (k : TokenKind) (w : String) : Lossless (wordAs k w) :=
  inferInstanceAs (Lossless (wordThat k _))

instance (w : String) : Lossless (kw w) := inferInstanceAs (Lossless (wordAs .keyword w))

instance (w : String) : Lossless (kwHere w) := inferInstanceAs (Lossless (seq _))

instance : Lossless atEnd := inferInstanceAs (Lossless (guard _))

end Tokens

/-! ## Lists and ends of statements -/

section Derived

variable {item separator : Rule} [Lossless item] [Lossless separator]

instance : Lossless (sepBy1 item separator) := inferInstanceAs (Lossless (seq _))

instance : Lossless (commaSeparated item) := inferInstanceAs (Lossless (seq _))

instance : Lossless (commaTerminated item) := inferInstanceAs (Lossless (seq _))

instance (afterExpression : Bool) : Lossless (semicolon afterExpression) :=
  inferInstanceAs (Lossless (alt _))

end Derived

/-! ## Extensions -/

section Extensions

variable {t : Tree} {r : Rule} {rs : List Rule}

instance (k : NodeKind) [hr : Lossless r] : Extends t (nodeAfter k t r) := ⟨by
  intro c ts c' h
  rw [nodeAfter] at h
  split at h
  · cases h
  · rename_i us c₁ hread
    simp only [Option.some.injEq, Prod.mk.injEq] at h
    obtain ⟨rfl, rfl⟩ := h
    refine ⟨Tree.sourceOf us, ?_, hr.remaining_eq hread⟩
    rw [Tree.sourceOf_node, Tree.sourceOf_cons]⟩

instance : Extends t fail := ⟨by simp [fail]⟩

instance [hs : AllExtend t rs] : Extends t (alt rs) := ⟨by
  intro c ts c' h
  obtain ⟨r, hmem, hr⟩ := exists_of_alt h
  exact (hs.extends_ r hmem).remaining_eq hr⟩

instance (p : Cursor → Bool) [hr : Extends t r] : Extends t (seq [guard p, r]) := ⟨by
  intro c ts c' h
  have hread : r c = some (ts, c') := by
    cases hp : p c <;> simp only [seq, seqOnto, guard, hp, if_true, Bool.false_eq_true, if_false] at h
    · cases h
    · split at h
      · cases h
      · rename_i hr
        exact hr.trans h
  exact hr.remaining_eq hread⟩

/-- An extension that is picked by position. -/
lemma extends_select {f : Cursor → Rule} (h : ∀ c, Extends t (f c)) : Extends t (select f) :=
  ⟨fun hr => (h _).remaining_eq hr⟩

/-- A tree and what extends it: nothing is lost when neither loses anything. -/
lemma remaining_of_extends {c c₁ c' : Cursor} {ts : List Tree}
    (hbase : c.remaining = Tree.sourceOf [t] ++ c₁.remaining) (hr : Extends t r)
    (h : r c₁ = some (ts, c')) : c.remaining = Tree.sourceOf ts ++ c'.remaining := by
  obtain ⟨more, hts, hmore⟩ := hr.remaining_eq h
  rw [hbase, hmore, hts, List.append_assoc]

/-- Extensions one after another add to the text of the tree. -/
lemma extendUpTo_remaining {extension : Tree → Rule} (he : ∀ t, Extends t (extension t)) {n : Nat}
    {c c₁ c' : Cursor} {ts : List Tree} (hbase : c.remaining = Tree.sourceOf [t] ++ c₁.remaining)
    (h : extendUpTo extension n t c₁ = some (ts, c')) :
    c.remaining = Tree.sourceOf ts ++ c'.remaining := by
  induction n generalizing t c₁ with
  | zero =>
    simp only [extendUpTo, Option.some.injEq, Prod.mk.injEq] at h
    obtain ⟨rfl, rfl⟩ := h
    exact hbase
  | succ n ih =>
    rw [extendUpTo] at h
    split at h
    · rename_i t' c₂ hext
      exact ih (remaining_of_extends hbase (he t) hext) h
    · simp only [Option.some.injEq, Prod.mk.injEq] at h
      obtain ⟨rfl, rfl⟩ := h
      exact hbase

instance {base : Rule} {extension : Tree → Rule} [hb : Lossless base]
    [he : ∀ t, Extends t (extension t)] : Lossless (extended base extension) := ⟨by
  intro c ts c' h
  rw [extended] at h
  split at h
  · rename_i t c₁ hread
    exact extendUpTo_remaining he (hb.remaining_eq hread) h
  · cases h⟩

end Extensions

end Rule

end RouteAssets.Script
