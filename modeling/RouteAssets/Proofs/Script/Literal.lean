import RouteAssets.Proofs.Script.Escaping
import RouteAssets.Proofs.Script.Grammar

/-!
# Literals are read back

A string that is written as a literal comes back as the value of that literal, whatever backslashes
and marks it holds. Three readers agree on where the literal ends.

* **Strings** (`splitString_literal`): the scan of a string passes every written character and stops
  behind the closing mark, whatever follows.
* **Templates** (`Rule.comesToMark_of_write`): a template is read in rounds, each a run of plain
  text or one escape. The rounds stop at the closing mark, unless the string has a dollar sign in
  front of a brace (`OpensSubstitution`): the escape rule does not cover it, and the literal of such
  a string is an interpolated one.
* **Scripts** (`exists_parse?_literal`): a script that is a literal is one expression in every
  dialect, since neither a word nor an operator stands at a mark or at the end (`Cursor.IsBare`).

With the decoding of what is between the marks these give the round trip (`literal_reads_back`).
-/

namespace RouteAssets.Script

open Rule

/-! ## Rules that apply -/

/-- The token with the given text that stands at a position. -/
def Cursor.token (c : Cursor) (k : TokenKind) (text : String) : Token :=
  { kind := k, gap := String.ofList c.gap, text, line := c.line }

namespace Rule

variable {r : Rule} {rs : List Rule} {read ts : List Tree} {c c' : Cursor} {t : Tree}

/-- The first of some rules applies, and the others go on behind it. -/
lemma seqOnto_cons (h : r c = some (ts, c')) :
    seqOnto read (r :: rs) c = seqOnto (read ++ ts) rs c' := by
  rw [seqOnto, h]

/-- One round of a repetition. -/
lemma repeatUpTo_succ (h : r c = some (ts, c')) (n : Nat) :
    repeatUpTo r (n + 1) read c = repeatUpTo r n (read ++ ts) c' := by
  rw [repeatUpTo, h]

/-- Where no round applies a repetition is over. -/
lemma repeatUpTo_of_none (h : r c = none) (n : Nat) : repeatUpTo r n read c = some (read, c) := by
  cases n with
  | zero => rfl
  | succ n => rw [repeatUpTo, h]

/-- A tree that nothing extends. -/
lemma extended_of_none {base : Rule} {extension : Tree → Rule} (h : base c = some ([t], c'))
    (hnone : extension t c' = none) : extended base extension c = some ([t], c') := by
  rw [extended, h]
  simp only [extendUpTo, hnone]

/-- The punctuation that stands at the position. -/
lemma sym_append {s : String} {rest : List Char} (h : c.rest = s.toList ++ rest) :
    sym s c = some ([.leaf (c.token .punctuation s)], c.after s.toList rest) := by
  have hstarts : c.startsWith s = true := by
    rw [Cursor.startsWith, h, List.isPrefixOf_iff_prefix]
    exact List.prefix_append _ _
  rw [sym, if_pos hstarts, h, ← String.length_toList, List.drop_left, emit, String.ofList_toList]
  rfl

end Rule

/-! ## Strings -/

section Strings

variable {m : Mark} {c l : Char} {w : List Char}

/-- A scan is outside the escape again. -/
lemma EndsEscape.next_eq (h : EndsEscape l) : EscapeState.next l .opened = some .complete := by
  simp [EscapeState.next, h.1, h.2.1, h.2.2]

/-- The scan of a string passes a written character. -/
lemma Mark.Writes.stringTail_append (h : m.Writes c w) (acc cs : List Char) :
    stringTail m.char .complete acc (w ++ cs) =
      stringTail m.char .complete (w.reverse ++ acc) cs := by
  cases h with
  | plain hescape hmark hline =>
    simp [stringTail, EscapeState.isOutside, EscapeState.next, hescape, hmark, hline.1, hline.2]
  | pair _ hends =>
    have hopened : EscapeState.next '\\' .complete = some .opened := rfl
    simp [stringTail, EscapeState.isOutside, m.backslash_ne_char, hopened, hends.next_eq]

/-- The scan of a string goes over a written text and stops behind the mark. -/
lemma stringTail_write (m : Mark) (acc cs rest : List Char) :
    stringTail m.char .complete acc (m.write cs ++ m.char :: rest) =
      some (acc.reverse ++ m.write cs ++ [m.char], rest) := by
  induction cs generalizing acc with
  | nil => simp [stringTail, EscapeState.isOutside]
  | cons c cs ih =>
    rw [Mark.write_cons, List.append_assoc, (m.writes_writtenChar c).stringTail_append, ih]
    simp

/-- A literal between quotation marks is taken off a text as a whole. -/
lemma splitString_literal (hm : m ≠ .backtick) (s : String) (rest : List Char) :
    splitString ((m.literal s).toList ++ rest) = some ((m.literal s).toList, rest) := by
  have hmark : (m.char == '\x22' || m.char == '\x27') = true := by
    cases m with
    | single => rfl
    | double => rfl
    | backtick => exact absurd rfl hm
  rw [Mark.toList_literal, List.cons_append, List.cons_append, splitString, if_pos hmark,
    List.append_assoc, List.singleton_append, stringTail_write]
  rfl

end Strings

/-! ## Templates -/

/-- A dollar sign stands in front of a brace, which begins a substitution. -/
def OpensSubstitution (cs : List Char) : Prop := ['$', '{'] <:+: cs

instance : DecidablePred OpensSubstitution := fun cs =>
  inferInstanceAs (Decidable (['$', '{'] <:+: cs))

section Templates

variable {cs ds : List Char}

/-- A text whose last part has a substitution has one. -/
lemma OpensSubstitution.of_suffix (h : OpensSubstitution ds) (hsuffix : ds <:+ cs) :
    OpensSubstitution cs := List.IsInfix.trans h hsuffix.isInfix

/-- What is written begins with a brace only where the text does. -/
lemma head?_write_ne_brace (h : cs.head? ≠ some '{') (rest : List Char) :
    (Mark.backtick.write cs ++ '\x60' :: rest).head? ≠ some '{' := by
  rcases cs with _ | ⟨c, cs⟩
  · simp
  · have hwrites := Mark.backtick.writes_writtenChar c
    rw [Mark.write_cons]
    generalize Mark.backtick.writtenChar c = w at hwrites ⊢
    cases hwrites with
    | plain _ _ _ => simpa using h
    | pair _ _ => simp

/-- The text of a template goes up to the first character that is written by an escape. -/
lemma splitTemplateText_write (h : ¬ OpensSubstitution cs) (rest : List Char) :
    ∃ plain after, cs = plain ++ after ∧
      splitTemplateText (Mark.backtick.write cs ++ '\x60' :: rest) =
        (plain, Mark.backtick.write after ++ '\x60' :: rest) ∧
      ∀ c ∈ after.head?, ∃ l, Mark.backtick.writtenChar c = ['\\', l] ∧ EndsEscape l := by
  induction cs with
  | nil => exact ⟨[], [], rfl, by simp [splitTemplateText], by simp⟩
  | cons c cs ih =>
    obtain ⟨plain, after, rfl, hsplit, hafter⟩ :=
      ih fun hopens => h (hopens.of_suffix (List.suffix_cons c cs))
    have hwrites := Mark.backtick.writes_writtenChar c
    rw [Mark.write_cons]
    generalize hw : Mark.backtick.writtenChar c = w at hwrites ⊢
    cases hwrites with
    | plain hescape hmark _ =>
      have hbrace : c = '$' →
          (Mark.backtick.write (plain ++ after) ++ '\x60' :: rest).head? ≠ some '{' := by
        rintro rfl
        refine head?_write_ne_brace (fun hhead => ?_) rest
        obtain ⟨ds, hds⟩ := List.head?_eq_some_iff.1 hhead
        exact h (hds ▸ ⟨[], ds, rfl⟩)
      have hgoes : (c == '\x60' || c == '\\' || (c == '$' &&
          (Mark.backtick.write (plain ++ after) ++ '\x60' :: rest).head? == some '{')) = false := by
        have hne : c ≠ '\x60' := hmark
        simpa [hescape, hne] using hbrace
      refine ⟨c :: plain, after, rfl, ?_, hafter⟩
      rw [List.append_assoc, List.singleton_append, splitTemplateText, hgoes, hsplit]
      rfl
    | pair _ hends =>
      refine ⟨[], c :: (plain ++ after), rfl, ?_, ?_⟩
      · rw [Mark.write_cons, hw]
        simp [splitTemplateText]
      · rintro _ ⟨⟩
        exact ⟨_, hw, hends⟩

end Templates

namespace Rule

/-- What a template reads in one round: a piece of its text, an escape or a substitution. -/
def templatePiece (inner : Rule) : Rule :=
  alt
    [ templateText,
      raw (lexeme .escape splitEscape),
      raw (node .templateSubstitution (seq [sym "$\x7b", inner, sym "\x7d"])) ]

/-- A template is its pieces between two marks. -/
lemma template_eq (inner : Rule) :
    template inner =
      node .template (seq [sym "\x60", many (templatePiece inner), raw (sym "\x60")]) :=
  rfl

variable {inner : Rule} {c : Cursor} {l : Char} {text rest : List Char}

/-- Template text is read where there is some. -/
lemma templateText_eq (h : splitTemplateText c.remaining = (text, rest)) :
    templateText c = if text = [] then none else emit .templateText text rest c.unskipped := by
  have hsplit : splitTemplateText c.unskipped.rest = (text, rest) := h
  simp only [templateText, raw, hsplit]
  cases text <;> rfl

/-- There is none in front of an escape or of the mark. -/
lemma templateText_eq_none (hl : l = '\x60' ∨ l = '\\') (h : c.remaining = l :: rest) :
    templateText c = none := by
  have hsplit : splitTemplateText c.remaining = ([], l :: rest) := by
    rw [h, splitTemplateText, if_pos]
    rcases hl with rfl | rfl <;> rfl
  rw [templateText_eq hsplit, if_pos rfl]

/-- A round at a piece of text. -/
lemma templatePiece_of_text (h : splitTemplateText c.remaining = (text, rest))
    (htext : text ≠ []) : templatePiece inner c = emit .templateText text rest c.unskipped := by
  have hread := templateText_eq h
  rw [if_neg htext] at hread
  exact alt_cons_of_some hread

/-- A round at an escape of one letter. -/
lemma templatePiece_of_pair (hl : EndsEscape l) (h : c.remaining = '\\' :: l :: rest) :
    templatePiece inner c = emit .escape ['\\', l] rest c.unskipped := by
  have hrest : c.unskipped.rest = '\\' :: l :: rest := h
  have hsplit : splitEscape c.unskipped.rest = some (['\\', l], rest) := by
    simp [hrest, splitEscape, escapeTail, hl.next_eq]
  rw [templatePiece, alt_cons_of_none (templateText_eq_none (Or.inr rfl) h)]
  refine alt_cons_of_some ?_
  simp only [raw, lexeme, hsplit]
  rfl

/-- No round at the mark. -/
lemma templatePiece_of_mark (h : c.remaining = '\x60' :: rest) : templatePiece inner c = none := by
  have hrest : c.unskipped.rest = '\x60' :: rest := h
  have hescape : raw (lexeme .escape splitEscape) c = none := by
    simp [raw, lexeme, hrest, splitEscape]
  have hsubstitution :
      raw (node .templateSubstitution (seq [sym "$\x7b", inner, sym "\x7d"])) c = none := by
    simp [raw, node, seq, seqOnto, sym, Cursor.startsWith, hrest]
  rw [templatePiece, alt_cons_of_none (templateText_eq_none (Or.inl rfl) h),
    alt_cons_of_none hescape, alt_cons_of_none hsubstitution, alt_nil]

/-- At most `n` rounds of a template come to the closing mark in front of `rest`, and none of them
reads a substitution. -/
def ComesToMark (inner : Rule) (rest : List Char) (n : Nat) (c : Cursor) : Prop :=
  ∀ read, ∃ parts c', repeatUpTo (templatePiece inner) n read c = some (read ++ parts, c') ∧
    (∀ t ∈ parts, t.isNode .templateSubstitution = false) ∧ c'.remaining = '\x60' :: rest

variable {n : Nat} {u : Token} {c₁ : Cursor}

/-- At the mark there is nothing to do. -/
lemma comesToMark_of_mark (h : c.remaining = '\x60' :: rest) : ComesToMark inner rest n c := by
  intro read
  refine ⟨[], c, ?_, by simp, h⟩
  rw [repeatUpTo_of_none (templatePiece_of_mark h), List.append_nil]

/-- A round that reads a token leads to the mark if the rounds behind it do. -/
lemma ComesToMark.of_round (h : ComesToMark inner rest n c₁)
    (hround : templatePiece inner c = some ([.leaf u], c₁)) :
    ComesToMark inner rest (n + 1) c := by
  intro read
  obtain ⟨parts, c', hparts, hnone, hremaining⟩ := h (read ++ [.leaf u])
  refine ⟨.leaf u :: parts, c', ?_, List.forall_mem_cons.2 ⟨rfl, hnone⟩, hremaining⟩
  rw [repeatUpTo_succ hround, hparts, List.append_assoc, List.singleton_append]

/-- The rounds of a template go over a written text, at most one for each of its characters. -/
lemma comesToMark_of_write {cs : List Char} (h : ¬ OpensSubstitution cs) (hn : cs.length < n)
    (hc : c.remaining = Mark.backtick.write cs ++ '\x60' :: rest) :
    ComesToMark inner rest n c := by
  induction n generalizing cs c with
  | zero => exact absurd hn (Nat.not_lt_zero _)
  | succ n ih =>
    obtain ⟨plain, after, rfl, hsplit, hafter⟩ := splitTemplateText_write h rest
    rw [← hc] at hsplit
    rw [List.length_append] at hn
    have hopens : ¬ OpensSubstitution after := fun hopens =>
      h (hopens.of_suffix (List.suffix_append plain after))
    by_cases hplain : plain = []
    · subst hplain
      rcases after with _ | ⟨a, after⟩
      · exact comesToMark_of_mark hc
      · obtain ⟨l, hwritten, hl⟩ := hafter a rfl
        rw [List.nil_append, Mark.write_cons, hwritten] at hc
        have hlength : after.length < n := by
          simp only [List.length_nil, List.length_cons] at hn
          omega
        exact (ih (fun hopens' => hopens (hopens'.of_suffix (List.suffix_cons a after))) hlength
          (Cursor.remaining_after _ _ _)).of_round (templatePiece_of_pair hl hc)
    · have hpos := List.length_pos_iff.2 hplain
      exact (ih hopens (by omega) (Cursor.remaining_after _ _ _)).of_round
        (templatePiece_of_text hsplit hplain)

end Rule

/-! ## Literals as trees -/

namespace Tree

/-- The text of some tokens behind the gap in front of them is their source. -/
lemma gap_append_textOfTokens (u : Token) (us : List Token) :
    u.gap.toList ++ (textOfTokens (u :: us)).toList = (u :: us).flatMap Token.source := by
  have hjoin : ∀ vs : List Token, (String.join (vs.map fun v => v.gap ++ v.text)).toList =
      vs.flatMap Token.source := by
    intro vs
    induction vs with
    | nil => rfl
    | cons v vs ih => simp [String.join_cons, ih, Token.source]
  rw [textOfTokens, String.toList_append, hjoin, List.flatMap_cons, ← List.append_assoc]
  rfl

/-- The source of a node that begins with a token: the gap before the token, then the text. -/
lemma sourceOf_node_leaf (k : NodeKind) (u : Token) (ts : List Tree) :
    sourceOf [node k (leaf u :: ts)] = u.gap.toList ++ (node k (leaf u :: ts)).text.toList := by
  rw [sourceOf_node]
  exact (gap_append_textOfTokens u (tokensOf ts)).symm

end Tree

section Literals

variable {c : Cursor} {m : Mark} {s : String} {rest : List Char}

/-- A literal between quotation marks is read as one token. -/
lemma exists_string_of_literal (hm : m ≠ .backtick) (hc : c.rest = (m.literal s).toList ++ rest) :
    ∃ t : Tree, t.IsLiteral ∧ t.text = m.literal s ∧
      string c = some ([t], c.after (m.literal s).toList rest) := by
  refine ⟨.leaf (c.token .string (m.literal s)), .string rfl, Tree.text_leaf _, ?_⟩
  simp only [string, lexeme, hc, splitString_literal hm s rest, emit, String.ofList_toList]
  rfl

/-- A literal between backticks that opens no substitution is read as one node. -/
lemma exists_template_of_literal (inner : Rule) [Lossless inner] (hs : ¬ OpensSubstitution s.toList)
    (hextent : s.length ≤ c.extent) (hc : c.rest = (Mark.backtick.literal s).toList ++ rest) :
    ∃ t : Tree, t.IsLiteral ∧ t.text = Mark.backtick.literal s ∧
      ∃ c₁ : Cursor, template inner c = some ([t], c₁.after ['\x60'] rest) := by
  let text := Mark.backtick.write s.toList ++ '\x60' :: rest
  have hopening : sym "\x60" c =
      some ([.leaf (c.token .punctuation "\x60")], c.after ['\x60'] text) :=
    sym_append (by simp [hc, Mark.toList_literal, Mark.char, text])
  have hlength : s.toList.length < c.extent + 1 := by
    rw [String.length_toList]
    omega
  have hcomes : ComesToMark inner rest (c.extent + 1) (c.after ['\x60'] text) :=
    comesToMark_of_write hs hlength (Cursor.remaining_after c ['\x60'] text)
  obtain ⟨parts, c₁, hparts, hnone, hremaining⟩ := hcomes []
  have hpieces : many (templatePiece inner) (c.after ['\x60'] text) = some (parts, c₁) := hparts
  have hclosing : raw (sym "\x60") c₁ =
      some ([.leaf (c₁.unskipped.token .punctuation "\x60")], c₁.unskipped.after ['\x60'] rest) :=
    sym_append hremaining
  have hread : template inner c = some ([.node .template (.leaf (c.token .punctuation "\x60") ::
      (parts ++ [.leaf (c₁.unskipped.token .punctuation "\x60")]))],
      c₁.unskipped.after ['\x60'] rest) := by
    rw [template_eq, node, seq, seqOnto_cons hopening, seqOnto_cons hpieces, seqOnto_cons hclosing,
      seqOnto_nil]
    rfl
  refine ⟨_, .template ?_, ?_, c₁.unskipped, hread⟩
  · rw [List.forall_mem_cons, List.forall_mem_append, List.forall_mem_singleton]
    exact ⟨rfl, hnone, rfl⟩
  · -- nothing is lost on the way, so the text of the tree is what has been passed over
    have hlossless := Lossless.remaining_eq hread
    have hgap : (c.token .punctuation "\x60").gap.toList = c.gap := String.toList_ofList
    rw [Cursor.remaining_after, Tree.sourceOf_node_leaf, Cursor.remaining, hc, ← List.append_assoc,
      List.append_left_inj, hgap, List.append_right_inj] at hlossless
    exact String.toList_inj.1 hlossless.symm

end Literals

/-! ## Positions without words -/

/-- Neither a word nor an operator stands at the position, but a mark or the end of the script. -/
def Cursor.IsBare (c : Cursor) : Prop :=
  c.rest = [] ∨ ∃ (m : Mark) (cs : List Char), c.rest = m.char :: cs

section Bare

variable {g : Grammar} {inTernary : Bool} {c : Cursor}

/-- There is no word. -/
lemma Cursor.IsBare.word_eq (h : c.IsBare) : c.word = "" := by
  rcases h with h | ⟨m, cs, h⟩ <;> rw [Cursor.word, h]
  · rfl
  · cases m <;> rfl

/-- There is no operator. -/
lemma Cursor.IsBare.operator_eq (h : c.IsBare) : c.operator = "" := by
  rw [Cursor.operator, h.word_eq]
  rcases h with h | ⟨m, cs, h⟩ <;> rw [h]
  · rfl
  · cases m <;> rfl

/-- An operand is read as a primary expression with its suffixes. -/
lemma operand_of_isBare (h : c.IsBare) : operand g inTernary c = postfixed g inTernary c := by
  have hangle : c.startsWith "<" = false := by
    rcases h with h | ⟨m, cs, h⟩ <;> rw [Cursor.startsWith, h]
    · rfl
    · cases m <;> rfl
  have hdestructuring : atDestructuring c = false := by
    rcases h with h | ⟨m, cs, h⟩ <;> rw [atDestructuring, Cursor.startsWith, Cursor.startsWith, h]
    · rfl
    · cases m <;> rfl
  simp [operand, select, h.word_eq, h.operator_eq, hangle, hdestructuring, wordOperand]

/-- A statement is read as an expression. -/
lemma statement_of_isBare (h : c.IsBare) : statement g c = expressionStatement g c := by
  rw [statement, select, h.word_eq]
  rcases h with h | ⟨m, cs, h⟩ <;> rw [Cursor.peek, h]
  · rfl
  · cases m <;> rfl

/-- No comment of a page is skipped. -/
lemma pageComment_of_isBare (h : c.IsBare) : pageComment c = none := by
  rcases h with h | ⟨m, cs, h⟩ <;> rw [pageComment, Cursor.startsWith, Cursor.startsWith, h]
  · rfl
  · cases m <;> rfl

end Bare

/-! ## Expressions at the end of a script -/

section Ending

variable {g : Grammar} {inTernary : Bool} {level : Nat} {c c' : Cursor} {t : Tree}

/-- A primary expression that ends the script is an operand. -/
lemma postfixed_of_primary (h : primary g inTernary c = some ([t], c')) (hc : c'.rest = []) :
    postfixed g inTernary c = some ([t], c') := by
  have hbare : c'.IsBare := Or.inl hc
  have hsuffix : suffix g t c' = none := by
    rw [suffix, select, Cursor.peek, hc]
    rfl
  rw [postfixed, extended_of_none h hsuffix]
  simp [hbare.operator_eq, isAssignment]

/-- An operand that no operator follows is a chain of its own. -/
lemma binary_of_operand (h : g (.operand inTernary) c = some ([t], c')) (hc : c'.IsBare) :
    binary g inTernary level c = some ([t], c') := by
  refine extended_of_none h ?_
  simp [chainLink, select, hc.word_eq, hc.operator_eq, binaryLevel, fail]

/-- A chain that no question mark follows is an expression. -/
lemma expression_of_binary (h : g (.binary inTernary 0) c = some ([t], c')) (hc : c'.IsBare) :
    expression g inTernary c = some ([t], c') := by
  rw [expression, h]
  simp [hc.operator_eq]

/-- An expression that ends the script stands for itself. -/
lemma expressions_of_expression (h : g (.expression false) c = some ([t], c')) (hc : c'.rest = []) :
    expressions g c = some ([t], c') := by
  have hcomma : c'.startsWith "," = false := by
    rw [Cursor.startsWith, hc]
    rfl
  rw [expressions, h]
  simp [hcomma]

/-- No semicolon is needed at the end of a script. -/
lemma semicolon_at_end (hc : c.rest = []) : semicolon true c = some ([], c) := by
  have hnone : sym ";" c = none := by
    rw [sym, Cursor.startsWith, hc]
    rfl
  rw [semicolon, alt_cons_of_none hnone]
  refine alt_cons_of_some ?_
  rw [Rule.guard, Cursor.endsStatement, hc]
  rfl

end Ending

/-! ## Scripts -/

section Scripts

variable {c : Cursor} {m : Mark} {s : String}

/-- A literal that ends a script is a primary expression. -/
lemma exists_primary_of_literal (depth : Nat) (hs : m = .backtick → ¬ OpensSubstitution s.toList)
    (hextent : s.length ≤ c.extent) (hc : c.rest = (m.literal s).toList) :
    ∃ (t : Tree) (c' : Cursor), t.IsLiteral ∧ t.text = m.literal s ∧ c'.rest = [] ∧
      primary (grammarUpTo depth) false c = some ([t], c') := by
  have hrest : c.rest = (m.literal s).toList ++ [] := by rw [hc, List.append_nil]
  have hpeek : c.peek = some m.char := by
    rw [Cursor.peek, hc, Mark.toList_literal]
    rfl
  have hlossless := lossless_grammarUpTo depth .expressions
  by_cases hm : m = .backtick
  · subst hm
    obtain ⟨t, hliteral, htext, c₁, hread⟩ :=
      exists_template_of_literal (grammarUpTo depth .expressions) (hs rfl) hextent hrest
    refine ⟨t, _, hliteral, htext, rfl, Eq.trans ?_ hread⟩
    rw [primary, select, hpeek]
    rfl
  · obtain ⟨t, hliteral, htext, hread⟩ := exists_string_of_literal hm hrest
    refine ⟨t, _, hliteral, htext, rfl, Eq.trans ?_ hread⟩
    rw [primary, select, hpeek]
    cases m with
    | single => rfl
    | double => rfl
    | backtick => exact absurd rfl hm

/-- A literal that ends a script is a statement. -/
lemma exists_statement_of_literal (depth : Nat) (hs : m = .backtick → ¬ OpensSubstitution s.toList)
    (hextent : s.length ≤ c.extent) (hc : c.rest = (m.literal s).toList) :
    ∃ (t : Tree) (c' : Cursor), t.IsLiteral ∧ t.text = m.literal s ∧ c'.rest = [] ∧
      grammarUpTo (depth + 5) .statement c = some ([.node .expressionStatement [t]], c') := by
  have hbare : c.IsBare := Or.inr ⟨m, _, hc.trans (m.toList_literal s)⟩
  obtain ⟨t, c', hliteral, htext, hend, hprimary⟩ := exists_primary_of_literal depth hs hextent hc
  have hoperand : grammarUpTo (depth + 1) (.operand false) c = some ([t], c') :=
    (operand_of_isBare hbare).trans (postfixed_of_primary hprimary hend)
  have hbinary : grammarUpTo (depth + 2) (.binary false 0) c = some ([t], c') :=
    binary_of_operand hoperand (Or.inl hend)
  have hexpression : grammarUpTo (depth + 3) (.expression false) c = some ([t], c') :=
    expression_of_binary hbinary (Or.inl hend)
  have hexpressions : grammarUpTo (depth + 4) .expressions c = some ([t], c') :=
    expressions_of_expression hexpression hend
  refine ⟨t, c', hliteral, htext, hend, (statement_of_isBare hbare).trans ?_⟩
  rw [expressionStatement, node, seq, seqOnto_cons hexpressions,
    seqOnto_cons (semicolon_at_end hend), seqOnto_nil]
  rfl

/-- At the end of a script there is no statement. -/
lemma statement_at_end (depth : Nat) (hc : c.rest = []) :
    grammarUpTo (depth + 5) .statement c = none := by
  have hprimary : primary (grammarUpTo depth) false c = none := by
    rw [primary, select, Cursor.peek, hc]
    rfl
  have hoperand : grammarUpTo (depth + 1) (.operand false) c = none := by
    refine (operand_of_isBare (Or.inl hc)).trans ?_
    rw [postfixed, extended, hprimary]
  have hbinary : grammarUpTo (depth + 2) (.binary false 0) c = none := by
    rw [grammarUpTo_succ, ruleOf, binary, extended, hoperand]
  have hexpression : grammarUpTo (depth + 3) (.expression false) c = none := by
    rw [grammarUpTo_succ, ruleOf, expression, hbinary]
  have hexpressions : grammarUpTo (depth + 4) .expressions c = none := by
    rw [grammarUpTo_succ, ruleOf, expressions, hexpression]
  refine (statement_of_isBare (Or.inl hc)).trans ?_
  rw [expressionStatement, node, seq, seqOnto, hexpressions]

/-- No gap begins with a mark, so a script that is a literal is in front of the reader as a
whole. -/
lemma rest_start_literal (d : Dialect) (m : Mark) (s : String) :
    (Cursor.start d (m.literal s).toList).rest = (m.literal s).toList := by
  rw [Mark.toList_literal]
  cases m <;> rfl

/-- A literal is at least as long as its string. -/
lemma length_le_length_literal (m : Mark) (s : String) :
    s.length ≤ (m.literal s).toList.length := by
  have hdecoded := length_unescape_le (innerText (m.literal s))
  rw [unescape_innerText_literal, String.length_toList] at hdecoded
  refine hdecoded.trans ?_
  rw [innerText, List.length_dropLast, List.length_tail]
  omega

/-- A script that is a literal is read as one expression. -/
lemma exists_parse?_literal (d : Dialect) (hs : m = .backtick → ¬ OpensSubstitution s.toList) :
    ∃ t : Tree, t.IsLiteral ∧ t.text = m.literal s ∧
      parse? d (m.literal s) = some (.node .program [.node .expressionStatement [t]]) := by
  let c := Cursor.start d (m.literal s).toList
  have hrest : c.rest = (m.literal s).toList := rest_start_literal d m s
  have hbare : c.IsBare := Or.inr ⟨m, _, hrest.trans (m.toList_literal s)⟩
  obtain ⟨depth, hdepth⟩ : ∃ depth, depthBound (m.literal s).toList.length = depth + 5 :=
    ⟨16 * (m.literal s).toList.length + 59, rfl⟩
  obtain ⟨t, c', hliteral, htext, hend, hstatement⟩ :=
    exists_statement_of_literal depth hs (length_le_length_literal m s) hrest
  have hline : opt (node .hashBangLine (lexeme .punctuation splitHashBang)) c = some ([], c) := by
    have hnone : splitHashBang c.rest = none := by
      rw [hrest, Mark.toList_literal]
      cases m <;> rfl
    rw [opt, node, lexeme, hnone]
  have hstatements : statements (grammarUpTo (depth + 5)) c =
      some ([.node .expressionStatement [t]], c') := by
    have hround : alt [pageComment, grammarUpTo (depth + 5) .statement] c =
        some ([.node .expressionStatement [t]], c') := by
      rw [alt_cons_of_none (pageComment_of_isBare hbare)]
      exact alt_cons_of_some hstatement
    have hlast : alt [pageComment, grammarUpTo (depth + 5) .statement] c' = none := by
      rw [alt_cons_of_none (pageComment_of_isBare (Or.inl hend)),
        alt_cons_of_none (statement_at_end depth hend), alt_nil]
    rw [statements, many, repeatUpTo_succ hround, repeatUpTo_of_none hlast, List.nil_append]
  have hatEnd : atEnd c' = some ([], c') := by
    rw [atEnd, Rule.guard, hend]
    rfl
  have hprogram : program (grammarUpTo (depth + 5)) c =
      some ([.node .program [.node .expressionStatement [t]]], c') := by
    rw [program, node, seq, seqOnto_cons hline, seqOnto_cons hstatements, seqOnto_cons hatEnd,
      seqOnto_nil]
    rfl
  refine ⟨t, hliteral, htext, ?_⟩
  rw [parse?]
  simp only [hdepth]
  rw [hprogram]

end Scripts

/-! ## The round trip -/

/-- **Literals are read back.** For every string and every mark: what stands between the marks of
the literal is decoded to the string. So the string is the value of every tree that is a string or a
template without substitutions and has the text of the literal, and that of the tree in any
wrappers. A script that is the literal is read, in every dialect, as one expression with the string
as its value; between backticks the string must not open a substitution. Decoding leaves every text
without a backslash unchanged. -/
theorem literal_reads_back (m : Mark) (s : String) :
    unescape (innerText (m.literal s)) = s.toList ∧
      (∀ t : Tree, t.IsLiteral → t.text = m.literal s →
        t.literalValue? = some s ∧ ∀ u, t.StandsIn u → u.stringValue? = some s) ∧
      (∀ d : Dialect, (m = .backtick → ¬ OpensSubstitution s.toList) →
        ∃ t : Tree,
          parse? d (m.literal s) = some (.node .program [.node .expressionStatement [t]]) ∧
            t.stringValue? = some s) ∧
      ∀ cs : List Char, '\\' ∉ cs → unescape cs = cs := by
  have hvalue : ∀ t : Tree, t.IsLiteral → t.text = m.literal s →
      t.literalValue? = some s ∧ ∀ u, t.StandsIn u → u.stringValue? = some s := by
    intro t hliteral htext
    have hvalue := hliteral.literalValue?_of_text htext
    exact ⟨hvalue, fun u hu => (hu.stringValue?_eq hliteral).trans hvalue⟩
  refine ⟨unescape_innerText_literal m s, hvalue, fun d hs => ?_, fun cs => unescape_of_not_mem⟩
  obtain ⟨t, hliteral, htext, hparse⟩ := exists_parse?_literal d hs
  exact ⟨t, hparse, (hvalue t hliteral htext).2 t .bare⟩

/-- Two backslashes in front of a letter that would be an escape with one of them, a mark, a newline
and a dollar sign: between backticks as a script, and between quotation marks in parentheses. -/
theorem literal_reads_back_of_backslashes :
    ¬ OpensSubstitution "\\\\n\x60\n$".toList ∧
      (∃ t : Tree, parse? .tsx "\x60\\\\\\\\n\\\x60\\n$\x60" =
          some (.node .program [.node .expressionStatement [t]]) ∧
        t.stringValue? = some "\\\\n\x60\n$") ∧
      (Tree.node .parenthesized
        [.leaf ⟨.punctuation, "", "(", 1⟩, .leaf ⟨.string, "", "\x22\\\\\\\\n\x60\\n$\x22", 1⟩,
          .leaf ⟨.punctuation, "", ")", 1⟩]).stringValue? = some "\\\\n\x60\n$" ∧
      '\\' ∉ "n$".toList ∧ unescape "n$".toList = "n$".toList := by
  have hopens : ¬ OpensSubstitution "\\\\n\x60\n$".toList := by decide
  have hplain : '\\' ∉ "n$".toList := by decide
  obtain ⟨-, -, hscripts, hunchanged⟩ := literal_reads_back .backtick "\\\\n\x60\n$"
  obtain ⟨-, htrees, -⟩ := literal_reads_back .double "\\\\n\x60\n$"
  have hwrapped : Tree.StandsIn (.leaf ⟨.string, "", "\x22\\\\\\\\n\x60\\n$\x22", 1⟩)
      (.node .parenthesized ([.leaf ⟨.punctuation, "", "(", 1⟩] ++
        .leaf ⟨.string, "", "\x22\\\\\\\\n\x60\\n$\x22", 1⟩ ::
          [.leaf ⟨.punctuation, "", ")", 1⟩])) :=
    .wrapped rfl (by decide) .bare
  refine ⟨hopens, hscripts .tsx fun _ => hopens, ?_, hplain, hunchanged _ hplain⟩
  exact (htrees (.leaf ⟨.string, "", "\x22\\\\\\\\n\x60\\n$\x22", 1⟩) (.string rfl)
    (by decide)).2 _ hwrapped

-- between backticks a substitution is read, and the literal has no value
example : ((parse? .javascript (Mark.backtick.literal "a$\x7bb\x7d")).map fun root =>
    root.preorder.filterMap Tree.literalValue?) = some [] := by decide +kernel

end RouteAssets.Script
