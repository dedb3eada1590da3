import RouteAssets.Proofs.Registration.Grammar
import RouteAssets.Proofs.Registration.Quoting

/-!
# What the comments of a registration text are

A text splits into quoted strings, line comments, block comments and other characters, read from
left to right. What is left of a text without its comments is said by its pieces.

* **Pieces** (`Splits`): every text splits into pieces (`exists_splits`), and in one way only
  (`Splits.unique`). A line comment ends in front of the next newline, a block comment behind the
  next closer, and both run to the end of the text where there is none, as an open string does.
* **Blanking** (`blankComments_of_splits`): exactly the characters of comments are overwritten,
  newlines excepted.
* **A second time** (`Splits.settled`): nothing new is opened around an overwritten comment, since it
  starts with a blank, and a slash in front of a blank opens none.
* **Contents of comments** (`blankComments_exact`): entries do not depend on them.
-/

namespace RouteAssets.Registration

open RouteAssets.Text

/-! ## Strings and comments -/

/-- A comment starts at the front of a text. -/
def OpensComment (cs : List Char) : Prop :=
  ∃ rest, cs = '/' :: '/' :: rest ∨ cs = '/' :: '*' :: rest

/-- What closes a block comment. -/
def closer : List Char := ['*', '/']

/-- A text is a string in front of a rest. One that stays open has no rest. -/
inductive IsString : List Char → List Char → Prop
  | closed {quote : Char} {content rest : List Char} (hquote : isQuote quote = true)
      (hcontent : IsContent quote content) : IsString (quote :: (content ++ [quote])) rest
  | unclosed {quote : Char} {content last : List Char} (hquote : isQuote quote = true)
      (hcontent : IsContent quote content) (hlast : last = [] ∨ last = ['\\']) :
      IsString (quote :: (content ++ last)) []

/-- A text is a comment in front of a rest. A line comment ends in front of a newline or with the
text. A block comment ends behind its first closer; one that stays open has no rest. -/
inductive IsComment : List Char → List Char → Prop
  | line {body rest : List Char} (hbody : '\n' ∉ body)
      (hend : rest = [] ∨ ∃ cs, rest = '\n' :: cs) : IsComment ('/' :: '/' :: body) rest
  | block {body rest : List Char} (hbody : ¬ closer <:+: body ++ ['*']) :
      IsComment ('/' :: '*' :: (body ++ closer)) rest
  | openBlock {body : List Char} (hbody : ¬ closer <:+: body) : IsComment ('/' :: '*' :: body) []

section Kinds

variable {c : Char} {cs cs' text text' rest rest' body body' : List Char}

/-- A string is a quote, a content, and what ends it, up to one character. -/
lemma IsString.exists_content (h : IsString text rest) :
    ∃ quote content last, isQuote quote = true ∧ IsContent quote content ∧
      EndsContent quote last ∧ text ++ rest = quote :: (content ++ last) ∧ rest = last.tail := by
  cases h with
  | @closed quote content rest hquote hcontent =>
    exact ⟨quote, content, quote :: rest, hquote, hcontent, endsContent_quote quote rest, by simp, rfl⟩
  | @unclosed quote content last hquote hcontent hlast =>
    have hends : EndsContent quote last := by
      rcases hlast with hlast | hlast
      · exact Or.inl hlast
      · exact Or.inr (Or.inl hlast)
    refine ⟨quote, content, last, hquote, hcontent, hends, by simp, ?_⟩
    rcases hlast with rfl | rfl
    · rfl
    · rfl

/-- A string starts with a quote. -/
lemma IsString.exists_quote (h : IsString text rest) :
    ∃ quote tail, text = quote :: tail ∧ isQuote quote = true := by
  cases h with
  | closed hquote _ => exact ⟨_, _, rfl, hquote⟩
  | unclosed hquote _ _ => exact ⟨_, _, rfl, hquote⟩

/-- A text starts with one string at most. -/
lemma IsString.unique (h : IsString text rest) (h' : IsString text' rest')
    (heq : text ++ rest = text' ++ rest') : text = text' ∧ rest = rest' := by
  obtain ⟨quote, content, last, hquote, hcontent, hlast, htext, rfl⟩ := h.exists_content
  obtain ⟨quote', content', last', -, hcontent', hlast', htext', rfl⟩ := h'.exists_content
  obtain ⟨rfl, hbehind⟩ := List.cons.inj (htext.symm.trans (heq.trans htext'))
  obtain ⟨-, rfl⟩ := content_unique hquote hcontent hcontent' hlast hlast' hbehind
  exact ⟨List.append_cancel_right heq, rfl⟩

/-- A string may stand in front of another rest, if that is empty when the first one is. -/
lemma IsString.congr (h : IsString text rest) (hrest : rest = [] → rest' = []) :
    IsString text rest' := by
  cases h with
  | closed hquote hcontent => exact .closed hquote hcontent
  | unclosed hquote hcontent hlast =>
    rw [hrest rfl]
    exact .unclosed hquote hcontent hlast

/-- What starts with a quote is no comment. -/
lemma not_opensComment_of_isQuote (h : isQuote c = true) : ¬ OpensComment (c :: cs) := by
  rintro ⟨rest, h' | h'⟩
  · obtain ⟨rfl, -⟩ := List.cons.inj h'
    revert h
    decide
  · obtain ⟨rfl, -⟩ := List.cons.inj h'
    revert h
    decide

/-- A comment is one from its first two characters on. -/
lemma IsComment.opensComment (h : IsComment text rest) : OpensComment (text ++ rest) := by
  cases h with
  | line _ _ => exact ⟨_, Or.inl rfl⟩
  | block _ => exact ⟨_, Or.inr rfl⟩
  | openBlock _ => exact ⟨_, Or.inr rfl⟩

/-! ## Where comments end -/

/-- The body of a line comment is the text up to a newline. -/
lemma takeWhile_line (hbody : '\n' ∉ body) (hend : rest = [] ∨ ∃ cs, rest = '\n' :: cs) :
    (body ++ rest).takeWhile (· != '\n') = body := by
  have hrun : ∀ d ∈ body, (d != '\n') = true := by
    intro d hd
    rw [bne_iff_ne]
    rintro rfl
    exact hbody hd
  rcases hend with rfl | ⟨cs, rfl⟩
  · rw [List.append_nil, List.takeWhile_eq_self_iff]
    exact hrun
  · exact takeWhile_run hrun (by simp)

/-- A closer starts at the front of a text or behind its first character. -/
lemma closer_infix_cons_iff :
    closer <:+: c :: cs ↔ (∃ rest, c = '*' ∧ cs = '/' :: rest) ∨ closer <:+: cs := by
  rw [List.infix_cons_iff]
  refine or_congr_left ?_
  constructor
  · rintro ⟨rest, h⟩
    obtain ⟨hc, htail⟩ := List.cons.inj h
    exact ⟨rest, hc.symm, htail.symm⟩
  · rintro ⟨rest, rfl, rfl⟩
    exact ⟨rest, rfl⟩

/-- A closer in the middle of a text. -/
lemma closer_infix (body cs : List Char) : closer <:+: body ++ '*' :: '/' :: cs :=
  ⟨body, cs, by simp [closer]⟩

/-- A text has no closer, or a first one. -/
lemma exists_closer (cs : List Char) :
    ¬ closer <:+: cs ∨ ∃ body rest, cs = body ++ '*' :: '/' :: rest ∧
      ¬ closer <:+: body ++ ['*'] := by
  induction cs with
  | nil => exact Or.inl (by simp [closer])
  | cons c cs ih =>
    by_cases hfront : ∃ rest, c = '*' ∧ cs = '/' :: rest
    · obtain ⟨rest, rfl, rfl⟩ := hfront
      refine Or.inr ⟨[], rest, rfl, fun h => ?_⟩
      have hlength := h.length_le
      simp [closer] at hlength
    · rcases ih with hnone | ⟨body, rest, rfl, hbody⟩
      · refine Or.inl fun h => ?_
        rcases closer_infix_cons_iff.1 h with h | h
        · exact hfront h
        · exact hnone h
      · refine Or.inr ⟨c :: body, rest, rfl, fun h => ?_⟩
        rcases closer_infix_cons_iff.1 h with ⟨tail, hc, htail⟩ | h
        · rcases body with _ | ⟨d, body⟩
          · cases htail
          · obtain ⟨rfl, -⟩ := List.cons.inj htail
            exact hfront ⟨_, hc, rfl⟩
        · exact hbody h

/-- What holds no closer is no longer than what another closer stands behind. -/
lemma length_le_of_closer (hbody : ¬ closer <:+: body' ++ ['*'])
    (h : body ++ '*' :: '/' :: cs = body' ++ '*' :: '/' :: cs') : body'.length ≤ body.length := by
  by_contra hlt
  rw [Nat.not_le] at hlt
  -- Otherwise the other closer starts inside of `body'`.
  have hprefix : body ++ ['*'] <+: body' := by
    have hfront : body ++ ['*'] <+: body' ++ '*' :: '/' :: cs' := ⟨'/' :: cs, by rw [← h]; simp⟩
    refine List.prefix_of_prefix_length_le hfront (List.prefix_append _ _) ?_
    rw [List.length_append, List.length_singleton]
    omega
  obtain ⟨tail, rfl⟩ := hprefix
  rw [List.append_assoc, List.append_assoc, List.append_cancel_left_eq] at h
  have htail := (List.cons.inj h).2
  rcases tail with _ | ⟨d, tail⟩
  · exact absurd (List.cons.inj htail).1 (by decide)
  · obtain ⟨rfl, -⟩ := List.cons.inj htail
    exact hbody ⟨body, tail ++ ['*'], by simp [closer]⟩

/-- The body of a block comment is the text up to its first closer. -/
lemma block_unique (hbody : ¬ closer <:+: body ++ ['*']) (hbody' : ¬ closer <:+: body' ++ ['*'])
    (h : body ++ '*' :: '/' :: cs = body' ++ '*' :: '/' :: cs') : body = body' ∧ cs = cs' := by
  have hlength := le_antisymm (length_le_of_closer hbody h.symm) (length_le_of_closer hbody' h)
  obtain ⟨rfl, hrest⟩ := List.append_inj h hlength
  exact ⟨rfl, by simpa using hrest⟩

/-- The second character of a comment tells a line comment from a block comment. -/
lemma line_ne_block : '/' :: '/' :: cs ≠ '/' :: '*' :: cs' := by
  intro h
  exact absurd (List.cons.inj (List.cons.inj h).2).1 (by decide)

/-- A text starts with one comment at most. -/
lemma IsComment.unique (h : IsComment text rest) (h' : IsComment text' rest')
    (heq : text ++ rest = text' ++ rest') : text = text' ∧ rest = rest' := by
  cases h with
  | @line body rest hbody hend =>
    cases h' with
    | @line body' rest' hbody' hend' =>
      have htail : body ++ rest = body' ++ rest' := (List.cons.inj (List.cons.inj heq).2).2
      have hbodies := takeWhile_line hbody hend
      rw [htail, takeWhile_line hbody' hend'] at hbodies
      subst hbodies
      exact ⟨rfl, List.append_cancel_left htail⟩
    | block _ => exact absurd heq line_ne_block
    | openBlock _ => exact absurd heq line_ne_block
  | @block body rest hbody =>
    cases h' with
    | line _ _ => exact absurd heq.symm line_ne_block
    | @block body' rest' hbody' =>
      have htail : body ++ closer ++ rest = body' ++ closer ++ rest' :=
        (List.cons.inj (List.cons.inj heq).2).2
      rw [List.append_assoc, List.append_assoc] at htail
      obtain ⟨rfl, hrests⟩ := block_unique hbody hbody' htail
      exact ⟨rfl, hrests⟩
    | @openBlock body' hbody' =>
      have htail : body ++ closer ++ rest = body' ++ [] := (List.cons.inj (List.cons.inj heq).2).2
      rw [List.append_assoc, List.append_nil] at htail
      exact absurd (htail ▸ closer_infix body rest) hbody'
  | @openBlock body hbody =>
    cases h' with
    | line _ _ => exact absurd heq.symm line_ne_block
    | @block body' rest' hbody' =>
      have htail : body ++ [] = body' ++ closer ++ rest' := (List.cons.inj (List.cons.inj heq).2).2
      rw [List.append_assoc, List.append_nil] at htail
      exact absurd (htail ▸ closer_infix body' rest') hbody
    | openBlock _ =>
      rw [List.append_nil, List.append_nil] at heq
      exact ⟨heq, rfl⟩

end Kinds

/-! ## Pieces -/

/-- A part of a registration text: a character outside strings and comments, or a string or a
comment as it is written. -/
inductive Piece where
  | char (c : Char)
  | string (text : List Char)
  | comment (text : List Char)
  deriving DecidableEq, Repr

/-- A piece as it is written. -/
def Piece.text : Piece → List Char
  | .char c => [c]
  | .string text => text
  | .comment text => text

/-- A piece with blanks in place of a comment. -/
def Piece.blanked : Piece → List Char
  | .comment text => text.map Registration.blanked
  | piece => piece.text

/-- What a piece splits into once its comment is overwritten. -/
def Piece.settled : Piece → List Piece
  | .comment text => (text.map Registration.blanked).map .char
  | piece => [piece]

/-- A text splits into pieces. -/
inductive Splits : List Char → List Piece → Prop
  | nil : Splits [] []
  | char {c : Char} {cs : List Char} {ps : List Piece} (hquote : isQuote c = false)
      (hcomment : ¬ OpensComment (c :: cs)) (hrest : Splits cs ps) :
      Splits (c :: cs) (.char c :: ps)
  | string {text cs : List Char} {ps : List Piece} (hstring : IsString text cs)
      (hrest : Splits cs ps) : Splits (text ++ cs) (.string text :: ps)
  | comment {text cs : List Char} {ps : List Piece} (hcomment : IsComment text cs)
      (hrest : Splits cs ps) : Splits (text ++ cs) (.comment text :: ps)

/-- Two pieces are the same up to the contents of comments: comments of the same length with
newlines at the same places count as one. -/
inductive Piece.Agrees : Piece → Piece → Prop
  | refl (piece : Piece) : Piece.Agrees piece piece
  | comment {text text' : List Char} (hlength : text.length = text'.length)
      (hlines : ∀ i : Nat, text[i]? = some '\n' ↔ text'[i]? = some '\n') :
      Piece.Agrees (.comment text) (.comment text')

section Pieces

variable {c quote : Char} {cs cs' text rest : List Char} {ps ps' : List Piece}

/-- The pieces of a text make it up. -/
lemma Splits.flatMap_text (h : Splits cs ps) : ps.flatMap Piece.text = cs := by
  induction h with
  | nil => rfl
  | char _ _ _ ih => rw [List.flatMap_cons, ih]; rfl
  | string _ _ ih => rw [List.flatMap_cons, ih]; rfl
  | comment _ _ ih => rw [List.flatMap_cons, ih]; rfl

/-- Every text splits into pieces. -/
lemma exists_splits (cs : List Char) : ∃ ps, Splits cs ps := by
  induction hn : cs.length using Nat.strong_induction_on generalizing cs with
  | _ n ih =>
    subst hn
    by_cases hcomment : OpensComment cs
    · obtain ⟨tail, rfl | rfl⟩ := hcomment
      · obtain ⟨body, hbody, htail⟩ := exists_eq_run_append (· != '\n') tail
        have hmem : '\n' ∉ body := fun h => by simpa using hbody _ h
        have hend : tail.dropWhile (· != '\n') = [] ∨
            ∃ cs, tail.dropWhile (· != '\n') = '\n' :: cs := by
          cases hdrop : tail.dropWhile (· != '\n') with
          | nil => exact Or.inl rfl
          | cons d cs =>
            have hd := List.head?_dropWhile_not (· != '\n') tail
            rw [hdrop] at hd
            simp only [List.head?_cons, bne_eq_false_iff_eq] at hd
            exact Or.inr ⟨cs, by rw [hd]⟩
        have hlength := (List.dropWhile_sublist (· != '\n') (l := tail)).length_le
        obtain ⟨ps, hps⟩ := ih _ (by simp only [List.length_cons]; omega)
          (tail.dropWhile (· != '\n')) rfl
        have hsplits := Splits.comment (.line hmem hend) hps
        rw [List.cons_append, List.cons_append, ← htail] at hsplits
        exact ⟨_, hsplits⟩
      · rcases exists_closer tail with hnone | ⟨body, rest, rfl, hbody⟩
        · have hsplits := Splits.comment (.openBlock hnone) .nil
          rw [List.append_nil] at hsplits
          exact ⟨_, hsplits⟩
        · obtain ⟨ps, hps⟩ := ih rest.length (by simp; omega) rest rfl
          have hsplits := Splits.comment (.block hbody) hps
          rw [List.cons_append, List.cons_append, List.append_assoc] at hsplits
          exact ⟨_, hsplits⟩
    · rcases cs with _ | ⟨c, cs⟩
      · exact ⟨[], .nil⟩
      · cases hquote : isQuote c with
        | false =>
          obtain ⟨ps, hps⟩ := ih cs.length (by simp) cs rfl
          exact ⟨_, .char hquote hcomment hps⟩
        | true =>
          obtain ⟨content, rest, hcontent, hrest, rfl⟩ := exists_content c cs
          have hunclosed : rest = [] ∨ rest = ['\\'] → ∃ ps, Splits (c :: (content ++ rest)) ps := by
            intro hlast
            have hsplits := Splits.string (.unclosed hquote hcontent hlast) .nil
            rw [List.append_nil] at hsplits
            exact ⟨_, hsplits⟩
          rcases hrest with hrest | hrest | ⟨cs, rfl⟩
          · exact hunclosed (Or.inl hrest)
          · exact hunclosed (Or.inr hrest)
          · obtain ⟨ps, hps⟩ := ih cs.length (by simp; omega) cs rfl
            have hsplits := Splits.string (.closed hquote hcontent) hps
            rw [List.cons_append, List.append_assoc] at hsplits
            exact ⟨_, hsplits⟩

/-- A text splits into pieces in one way only. -/
lemma Splits.unique (h : Splits cs ps) (h' : Splits cs ps') : ps' = ps := by
  induction h generalizing ps' with
  | nil =>
    generalize htext : [] = text at h'
    cases h' with
    | nil => rfl
    | char => cases htext
    | string hstring _ =>
      obtain ⟨quote, tail, rfl, -⟩ := hstring.exists_quote
      cases htext
    | comment hcomment _ =>
      obtain ⟨tail, htail⟩ := hcomment.opensComment
      rw [← htext] at htail
      simp at htail
  | @char c cs ps hquote hcomment _ ih =>
    generalize htext : c :: cs = text at h'
    cases h' with
    | nil => cases htext
    | char _ _ hrest =>
      obtain ⟨rfl, rfl⟩ := List.cons.inj htext
      rw [ih hrest]
    | string hstring _ =>
      obtain ⟨quote, tail, rfl, hquote'⟩ := hstring.exists_quote
      obtain ⟨rfl, -⟩ := List.cons.inj htext
      simp [hquote] at hquote'
    | comment hcomment' _ => exact absurd (htext ▸ hcomment'.opensComment) hcomment
  | @string text cs ps hstring _ ih =>
    generalize htext : text ++ cs = text' at h'
    obtain ⟨quote, tail, htail, hquote⟩ := hstring.exists_quote
    cases h' with
    | nil => simp [htail] at htext
    | char hquote' _ _ =>
      rw [htail] at htext
      obtain ⟨rfl, -⟩ := List.cons.inj htext
      simp [hquote] at hquote'
    | string hstring' hrest =>
      obtain ⟨rfl, rfl⟩ := hstring.unique hstring' htext
      rw [ih hrest]
    | comment hcomment' _ =>
      have hopens := hcomment'.opensComment
      rw [← htext, htail] at hopens
      exact absurd hopens (not_opensComment_of_isQuote hquote)
  | @comment text cs ps hcomment _ ih =>
    generalize htext : text ++ cs = text' at h'
    have hopens := hcomment.opensComment
    rw [htext] at hopens
    cases h' with
    | nil =>
      obtain ⟨tail, htail⟩ := hopens
      simp at htail
    | char _ hcomment' _ => exact absurd hopens hcomment'
    | string hstring' _ =>
      obtain ⟨quote, tail, rfl, hquote⟩ := hstring'.exists_quote
      exact absurd hopens (not_opensComment_of_isQuote hquote)
    | comment hcomment' hrest =>
      obtain ⟨rfl, rfl⟩ := hcomment.unique hcomment' htext
      rw [ih hrest]

/-! ## Blanking -/

/-- Behind the last character there is nothing to overwrite. -/
@[simp] lemma blankFrom_nil (region : Region) : blankFrom region [] = [] := by
  cases region <;> rfl

/-- A character of a string is copied, and so is one behind a backslash. -/
lemma blankFrom_inside (quote c : Char) (cs : List Char) :
    blankFrom (.string quote) (c :: cs) = c :: blankFrom (Region.afterStringChar quote c) cs ∧
    blankFrom (.escape quote) (c :: cs) = c :: blankFrom (.string quote) cs := by
  constructor
  · rw [blankFrom]
  · rw [blankFrom]

/-- A character that opens no comment is copied. -/
lemma blankFrom_cons (hcomment : ¬ OpensComment (c :: cs)) :
    blankFrom .plain (c :: cs) = c :: blankFrom (if isQuote c then .string c else .plain) cs := by
  rw [blankFrom]
  · rintro tail rfl rfl
    exact hcomment ⟨tail, Or.inl rfl⟩
  · rintro tail rfl rfl
    exact hcomment ⟨tail, Or.inr rfl⟩

/-- Characters outside strings and comments are copied. -/
lemma blankFrom_char (hquote : isQuote c = false) (hcomment : ¬ OpensComment (c :: cs)) :
    blankFrom .plain (c :: cs) = c :: blankFrom .plain cs := by
  rw [blankFrom_cons hcomment, hquote, if_neg Bool.false_ne_true]

/-- What starts with a quote is copied, and goes on inside of the string. -/
lemma blankFrom_quote (hquote : isQuote quote = true) :
    blankFrom .plain (quote :: cs) = quote :: blankFrom (.string quote) cs := by
  rw [blankFrom_cons (not_opensComment_of_isQuote hquote), if_pos hquote]

/-- The content of a string is copied. -/
lemma blankFrom_content {content : List Char} (hcontent : IsContent quote content) :
    blankFrom (.string quote) (content ++ cs) = content ++ blankFrom (.string quote) cs := by
  induction hcontent with
  | nil => rfl
  | char hescape hne _ ih =>
    rw [List.cons_append, (blankFrom_inside quote _ _).1, Region.afterStringChar,
      if_neg (by simpa using hescape), if_neg (by simpa using hne), ih, List.cons_append]
  | escaped _ ih =>
    rw [List.cons_append, List.cons_append, (blankFrom_inside quote _ _).1, Region.afterStringChar,
      if_pos (by rfl), (blankFrom_inside quote _ _).2, ih, List.cons_append, List.cons_append]

/-- Strings are copied. -/
lemma blankFrom_string (h : IsString text rest) :
    blankFrom .plain (text ++ rest) = text ++ blankFrom .plain rest := by
  cases h with
  | @closed quote content rest hquote hcontent =>
    have hne : (quote == '\\') = false := by simpa using ne_backslash_of_isQuote hquote
    rw [List.cons_append, List.append_assoc, blankFrom_quote hquote, blankFrom_content hcontent,
      List.singleton_append, (blankFrom_inside quote quote _).1, Region.afterStringChar, hne,
      if_neg Bool.false_ne_true, if_pos (by simp)]
    simp
  | @unclosed quote content last hquote hcontent hlast =>
    have hcopy : blankFrom (.string quote) last = last := by
      rcases hlast with rfl | rfl
      · rfl
      · rfl
    rw [List.append_nil, blankFrom_quote hquote, blankFrom_content hcontent, hcopy, blankFrom_nil,
      List.append_nil]

/-- The body of a line comment is overwritten. -/
lemma blankFrom_line {body : List Char} (hbody : '\n' ∉ body)
    (hend : rest = [] ∨ ∃ cs, rest = '\n' :: cs) :
    blankFrom .lineComment (body ++ rest) = body.map blanked ++ blankFrom .plain rest := by
  induction body with
  | nil =>
    rcases hend with rfl | ⟨cs, rfl⟩
    · rfl
    · rfl
  | cons c body ih =>
    rw [List.mem_cons, not_or] at hbody
    rw [List.cons_append, blankFrom, if_neg (by simpa using Ne.symm hbody.1), ih hbody.2,
      List.map_cons, List.cons_append]

/-- A character that starts no closer is overwritten and does not end a block comment. -/
lemma blankFrom_block_cons (h : ¬ ∃ tail, c = '*' ∧ cs = '/' :: tail) :
    blankFrom .blockComment (c :: cs) = blanked c :: blankFrom .blockComment cs := by
  rw [blankFrom]
  rintro tail rfl rfl
  exact h ⟨tail, rfl, rfl⟩

/-- The body of a block comment is overwritten up to the first closer. -/
lemma blankFrom_block {body : List Char} (hbody : ¬ closer <:+: body ++ ['*']) :
    blankFrom .blockComment (body ++ '*' :: '/' :: rest) =
      (body ++ closer).map blanked ++ blankFrom .plain rest := by
  induction body with
  | nil => rfl
  | cons c body ih =>
    rw [List.cons_append, closer_infix_cons_iff, not_or] at hbody
    have hfront : ¬ ∃ tail, c = '*' ∧ body ++ '*' :: '/' :: rest = '/' :: tail := by
      rintro ⟨tail, rfl, htail⟩
      rcases body with _ | ⟨d, body⟩
      · exact absurd (List.cons.inj htail).1 (by decide)
      · obtain ⟨rfl, -⟩ := List.cons.inj htail
        exact hbody.1 ⟨_, rfl, rfl⟩
    rw [List.cons_append, blankFrom_block_cons hfront, ih hbody.2]
    rfl

/-- A block comment that stays open is overwritten. -/
lemma blankFrom_openBlock {body : List Char} (hbody : ¬ closer <:+: body) :
    blankFrom .blockComment body = body.map blanked := by
  induction body with
  | nil => rfl
  | cons c body ih =>
    rw [closer_infix_cons_iff, not_or] at hbody
    rw [blankFrom_block_cons hbody.1, ih hbody.2, List.map_cons]

/-- Comments are overwritten. -/
lemma blankFrom_comment (h : IsComment text rest) :
    blankFrom .plain (text ++ rest) = text.map blanked ++ blankFrom .plain rest := by
  -- An opener is overwritten and leads into its comment.
  have hline : ∀ cs, blankFrom .plain ('/' :: '/' :: cs) = ' ' :: ' ' :: blankFrom .lineComment cs :=
    fun _ => rfl
  have hblock : ∀ cs,
      blankFrom .plain ('/' :: '*' :: cs) = ' ' :: ' ' :: blankFrom .blockComment cs :=
    fun _ => rfl
  cases h with
  | line hbody hend =>
    rw [List.cons_append, List.cons_append, hline, blankFrom_line hbody hend]
    rfl
  | block hbody =>
    rw [List.cons_append, List.cons_append, List.append_assoc, hblock]
    exact congrArg _ (congrArg _ (blankFrom_block hbody))
  | @openBlock body hbody =>
    rw [List.append_nil, hblock, blankFrom_openBlock hbody, blankFrom_nil, List.append_nil]
    rfl

/-- **Exactly the characters of comments are overwritten**, newlines excepted. -/
lemma blankComments_of_splits (h : Splits cs ps) : blankComments cs = ps.flatMap Piece.blanked := by
  unfold blankComments
  induction h with
  | nil => rfl
  | char hquote hcomment _ ih => rw [blankFrom_char hquote hcomment, ih]; rfl
  | string hstring _ ih => rw [blankFrom_string hstring, ih]; rfl
  | comment hcomment _ ih => rw [blankFrom_comment hcomment, ih]; rfl

/-- A piece keeps its length. -/
lemma Piece.length_blanked (p : Piece) : p.blanked.length = p.text.length := by
  cases p with
  | char => rfl
  | string => rfl
  | comment => exact List.length_map _

/-- A text keeps its length. -/
lemma length_flatMap_blanked (ps : List Piece) :
    (ps.flatMap Piece.blanked).length = (ps.flatMap Piece.text).length := by
  induction ps with
  | nil => rfl
  | cons p ps ih =>
    rw [List.flatMap_cons, List.flatMap_cons, List.length_append, List.length_append, ih,
      p.length_blanked]

/-! ## A second time -/

/-- An overwritten character is a blank or a newline. -/
lemma blanked_eq (c : Char) : blanked c = ' ' ∨ blanked c = '\n' := by
  unfold blanked
  split
  · exact Or.inr rfl
  · exact Or.inl rfl

/-- Overwritten characters are neither quotes nor the start of a comment. -/
lemma Splits.blanked_append (h : Splits cs ps) (text : List Char) :
    Splits (text.map blanked ++ cs) ((text.map blanked).map .char ++ ps) := by
  induction text with
  | nil => exact h
  | cons c text ih =>
    refine .char ?_ ?_ ih
    · rcases blanked_eq c with hc | hc <;> rw [hc] <;> rfl
    · rintro ⟨tail, htail | htail⟩ <;>
      · have hhead := (List.cons.inj htail).1
        rcases blanked_eq c with hc | hc <;> rw [hc] at hhead <;> revert hhead <;> decide

/-- What a text starts with is kept unless it is overwritten by a blank. -/
lemma Splits.head?_blanked (h : Splits cs ps) (hc : c ≠ ' ')
    (hhead : (ps.flatMap Piece.blanked).head? = some c) : cs.head? = some c := by
  cases h with
  | nil => exact hhead
  | char => exact hhead
  | string hstring _ =>
    obtain ⟨quote, tail, rfl, -⟩ := hstring.exists_quote
    exact hhead
  | comment hcomment _ =>
    -- the first character of a comment is a slash
    cases hcomment with
    | line => exact absurd (Option.some.inj hhead).symm hc
    | block => exact absurd (Option.some.inj hhead).symm hc
    | openBlock => exact absurd (Option.some.inj hhead).symm hc

/-- A text starts a comment by its first two characters. -/
lemma opensComment_cons_iff :
    OpensComment (c :: cs) ↔ c = '/' ∧ (cs.head? = some '/' ∨ cs.head? = some '*') := by
  constructor
  · rintro ⟨rest, h | h⟩
    · obtain ⟨rfl, rfl⟩ := List.cons.inj h
      exact ⟨rfl, Or.inl rfl⟩
    · obtain ⟨rfl, rfl⟩ := List.cons.inj h
      exact ⟨rfl, Or.inr rfl⟩
  · rintro ⟨rfl, h | h⟩
    · obtain ⟨rest, rfl⟩ := List.head?_eq_some_iff.1 h
      exact ⟨rest, Or.inl rfl⟩
    · obtain ⟨rest, rfl⟩ := List.head?_eq_some_iff.1 h
      exact ⟨rest, Or.inr rfl⟩

/-- **An overwritten text has no comments**: it splits into the characters and strings that were
there, and into the blanks and newlines that comments have left. -/
lemma Splits.settled (h : Splits cs ps) :
    Splits (ps.flatMap Piece.blanked) (ps.flatMap Piece.settled) := by
  induction h with
  | nil => exact .nil
  | char hquote hcomment hrest ih =>
    refine .char hquote (fun hopens => hcomment ?_) ih
    rw [opensComment_cons_iff] at hopens ⊢
    refine ⟨hopens.1, ?_⟩
    rcases hopens.2 with hhead | hhead
    · exact Or.inl (hrest.head?_blanked (by decide) hhead)
    · exact Or.inr (hrest.head?_blanked (by decide) hhead)
  | string hstring hrest ih =>
    refine .string (hstring.congr fun hnil => ?_) ih
    subst hnil
    cases hrest.unique .nil
    rfl
  | comment _ _ ih => exact ih.blanked_append _

/-- Without a comment nothing is overwritten. -/
lemma flatMap_blanked_settled (ps : List Piece) :
    (ps.flatMap Piece.settled).flatMap Piece.blanked = ps.flatMap Piece.blanked := by
  have hchars : ∀ text : List Char, (text.map Piece.char).flatMap Piece.blanked = text := by
    intro text
    induction text with
    | nil => rfl
    | cons c text ih => rw [List.map_cons, List.flatMap_cons, ih]; rfl
  induction ps with
  | nil => rfl
  | cons p ps ih =>
    rw [List.flatMap_cons, List.flatMap_append, ih, List.flatMap_cons]
    cases p with
    | char => rfl
    | string text =>
      rw [show (Piece.string text).settled = [.string text] from rfl, List.flatMap_singleton]
    | comment text => rw [Piece.settled, hchars]; rfl

/-! ## Contents of comments -/

/-- Pieces that are the same up to the contents of comments are overwritten by the same text. -/
lemma Piece.Agrees.blanked_eq {p p' : Piece} (h : p.Agrees p') : p.blanked = p'.blanked := by
  cases h with
  | refl => rfl
  | @comment text text' hlength hlines =>
    refine List.ext_getElem? fun i => ?_
    rw [Piece.blanked, Piece.blanked, List.getElem?_map, List.getElem?_map]
    have hi := hlines i
    by_cases hin : i < text.length
    · rw [List.getElem?_eq_getElem hin, List.getElem?_eq_getElem (hlength ▸ hin)] at hi ⊢
      simp only [Option.some.injEq, Option.map_some, Registration.blanked, beq_iff_eq] at hi ⊢
      simp only [hi]
    · rw [List.getElem?_eq_none (by omega), List.getElem?_eq_none (by omega)]

/-- Texts that are the same up to the contents of comments are overwritten by the same text. -/
lemma flatMap_blanked_congr (h : List.Forall₂ Piece.Agrees ps ps') :
    ps.flatMap Piece.blanked = ps'.flatMap Piece.blanked := by
  induction h with
  | nil => rfl
  | cons hp _ ih => rw [List.flatMap_cons, List.flatMap_cons, ih, hp.blanked_eq]

end Pieces

/-- **Comments are overwritten, and nothing else is.** A text splits into its pieces in one way, and
blanking copies all of them but the comments, in which every character but a newline becomes a
blank. So the length stays, and a second time changes nothing. Texts that are the same up to the
contents of comments have the same entries. -/
theorem blankComments_exact (cs : List Char) :
    ∃ ps, Splits cs ps ∧ (∀ ps', Splits cs ps' → ps' = ps) ∧ ps.flatMap Piece.text = cs ∧
      blankComments cs = ps.flatMap Piece.blanked ∧ (blankComments cs).length = cs.length ∧
      blankComments (blankComments cs) = blankComments cs ∧
      ∀ cs' ps', Splits cs' ps' → List.Forall₂ Piece.Agrees ps ps' →
        entries (String.ofList cs') = entries (String.ofList cs) := by
  obtain ⟨ps, hps⟩ := exists_splits cs
  have hblank := blankComments_of_splits hps
  refine ⟨ps, hps, fun ps' hps' => hps.unique hps', hps.flatMap_text, hblank, ?_, ?_, ?_⟩
  · rw [hblank, length_flatMap_blanked, hps.flatMap_text]
  · rw [hblank, blankComments_of_splits hps.settled, flatMap_blanked_settled]
  · intro cs' ps' hps' hagrees
    unfold entries
    rw [String.toList_ofList, String.toList_ofList, hblank, blankComments_of_splits hps',
      flatMap_blanked_congr hagrees]

example : String.ofList (blankComments "a /* b\n '*/ '// c' // d".toList) =
    "a     \n     '// c'     " := by decide

end RouteAssets.Registration
