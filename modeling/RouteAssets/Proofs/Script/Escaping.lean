import RouteAssets.Proofs.Script.Written

/-!
# Strings written as literals

A literal is a text between two marks. What would end it or break it is escaped: a backslash stands
in front of every backslash and of every mark, and a newline, a tab, a carriage return and NUL are a
letter behind a backslash. Decoding goes from left to right and takes every backslash together with
the character behind it, so that in a run of backslashes all depends on where the pairs begin.

* **Characters** (`Mark.writes_writtenChar`): each is written as itself or as a pair that stands for
  it. So no pair reaches from one written character into the next (`Mark.Writes.unescape_append`).
* **Texts** (`unescape_write_append`): what is written is decoded to the text, and what is behind it
  as if it stood alone.
* **Texts that stay** (`unescape_eq_self_iff`): those with no backslash but perhaps one at the very
  end.
* **Trees** (`Tree.IsLiteral`): strings and templates without substitutions have the written string
  as their value, in any wrappers.
-/

namespace RouteAssets.Script

/-! ## Writing -/

/-- Behind a backslash the character ends the escape. It begins none with a number in it, and takes
no newline with it. -/
def EndsEscape (l : Char) : Prop := l ≠ 'x' ∧ l ≠ 'u' ∧ l ≠ '\r'

instance : DecidablePred EndsEscape := fun _ => inferInstanceAs (Decidable (_ ∧ _))

/-- The mark at both ends of a literal. -/
inductive Mark where
  | single
  | double
  | backtick
  deriving DecidableEq, Repr

namespace Mark

/-- The character of a mark. -/
def char : Mark → Char
  | single => '\x27'
  | double => '\x22'
  | backtick => '\x60'

/-- A character as it is written between two marks. -/
def writtenChar (m : Mark) (c : Char) : List Char :=
  if c = '\n' then ['\\', 'n']
  else if c = '\t' then ['\\', 't']
  else if c = '\r' then ['\\', 'r']
  else if c = '\x00' then ['\\', '0']
  else if c = '\\' ∨ c = m.char then ['\\', c]
  else [c]

/-- A text as it is written between two marks. -/
def write (m : Mark) (cs : List Char) : List Char := cs.flatMap m.writtenChar

/-- A string as a literal, with its marks. -/
def literal (m : Mark) (s : String) : String :=
  String.ofList (m.char :: m.write s.toList ++ [m.char])

/-- How a character can be written: as itself where it neither ends nor breaks a literal, or as a
pair that stands for it. -/
inductive Writes (m : Mark) (c : Char) : List Char → Prop
  | plain (hescape : c ≠ '\\') (hmark : c ≠ m.char) (hline : c ≠ '\n' ∧ c ≠ '\r') : Writes m c [c]
  | pair {l : Char} (hstands : escapedChar l = c) (hends : EndsEscape l) : Writes m c ['\\', l]

variable (m : Mark) (c : Char) (cs : List Char) (s : String)

@[simp] lemma write_nil : m.write [] = [] := rfl

@[simp] lemma write_cons : m.write (c :: cs) = m.writtenChar c ++ m.write cs := List.flatMap_cons

lemma toList_literal : (m.literal s).toList = m.char :: m.write s.toList ++ [m.char] :=
  String.toList_ofList

/-- The mark is none of the letters that stand for another character. -/
lemma escapedChar_char : escapedChar m.char = m.char := by cases m <;> rfl

/-- A backslash is no mark. -/
lemma backslash_ne_char : '\\' ≠ m.char := by cases m <;> decide

/-- Every character is written as itself or as a pair that stands for it. -/
lemma writes_writtenChar : m.Writes c (m.writtenChar c) := by
  unfold writtenChar
  split_ifs with hn ht hr hzero hself
  · exact .pair hn.symm (by decide)
  · exact .pair ht.symm (by decide)
  · exact .pair hr.symm (by decide)
  · exact .pair hzero.symm (by decide)
  · rcases hself with rfl | rfl
    · exact .pair rfl (by decide)
    · exact .pair m.escapedChar_char (by cases m <;> decide)
  · rw [not_or] at hself
    exact .plain hself.1 hself.2 ⟨hn, hr⟩

end Mark

/-! ## Decoding -/

section Decoding

variable {m : Mark} {c : Char} {cs w : List Char}

/-- A pair stands for one character. -/
lemma unescape_pair (c : Char) (cs : List Char) :
    unescape ('\\' :: c :: cs) = escapedChar c :: unescape cs := rfl

/-- Any other character than the backslash stands for itself. -/
lemma unescape_cons (h : c ≠ '\\') (cs : List Char) : unescape (c :: cs) = c :: unescape cs := by
  rw [unescape]
  rintro _ _ rfl
  exact absurd rfl h

/-- A written character is decoded to the character, whatever is behind it. -/
lemma Mark.Writes.unescape_append (h : m.Writes c w) (cs : List Char) :
    unescape (w ++ cs) = c :: unescape cs := by
  cases h with
  | plain hescape _ _ => exact unescape_cons hescape cs
  | pair hstands _ => rw [List.cons_append, List.singleton_append, unescape_pair, hstands]

/-- A written text is decoded to the text, and what is behind it as if it stood alone. -/
lemma unescape_write_append (m : Mark) (cs rest : List Char) :
    unescape (m.write cs ++ rest) = cs ++ unescape rest := by
  induction cs with
  | nil => rfl
  | cons c cs ih =>
    rw [Mark.write_cons, List.append_assoc, (m.writes_writtenChar c).unescape_append, ih,
      List.cons_append]

/-- What stands between the marks of a literal. -/
lemma innerText_literal (m : Mark) (s : String) : innerText (m.literal s) = m.write s.toList := by
  rw [innerText, Mark.toList_literal, List.cons_append, List.tail_cons, List.dropLast_concat]

/-- What stands between the marks of a literal is decoded to the string. -/
lemma unescape_innerText_literal (m : Mark) (s : String) :
    unescape (innerText (m.literal s)) = s.toList := by
  rw [innerText_literal, ← List.append_nil (m.write s.toList), unescape_write_append, unescape,
    List.append_nil]

/-- Decoding makes no text longer. -/
lemma length_unescape_le (cs : List Char) : (unescape cs).length ≤ cs.length := by
  fun_induction unescape cs with
  | case1 => exact le_rfl
  | case2 c cs ih =>
    simp only [List.length_cons]
    omega
  | case3 c cs _ ih => simpa using ih

/-- The texts that decoding leaves unchanged are those with no backslash in front of their last
character. Where there is one, its pair becomes one character and the text is shorter. -/
lemma unescape_eq_self_iff (cs : List Char) : unescape cs = cs ↔ '\\' ∉ cs.dropLast := by
  fun_induction unescape cs with
  | case1 => simp
  | case2 c cs _ =>
    have hshorter := length_unescape_le cs
    refine iff_of_false (fun h => ?_) (by simp)
    have hlength := congrArg List.length h
    simp only [List.length_cons] at hlength
    omega
  | case3 c cs hpair ih =>
    rcases cs with _ | ⟨d, cs⟩
    · simp [unescape]
    · have hc : '\\' ≠ c := fun h => hpair d cs h.symm rfl
      simp [ih, hc]

/-- A text without a backslash is left unchanged. -/
lemma unescape_of_not_mem (h : '\\' ∉ cs) : unescape cs = cs :=
  (unescape_eq_self_iff cs).2 fun hmem => h (List.mem_of_mem_dropLast hmem)

end Decoding

/-! ## Trees -/

namespace Tree

/-- A tree is a literal: a string, or a template without substitutions. -/
inductive IsLiteral : Tree → Prop
  | string {u : Token} (hkind : u.kind = .string) : IsLiteral (leaf u)
  | template {ts : List Tree} (hparts : ∀ t ∈ ts, t.isNode .templateSubstitution = false) :
      IsLiteral (node .template ts)

variable {t u : Tree} {m : Mark} {s : String}

/-- The text of a token. -/
lemma text_leaf (u : Token) : (leaf u).text = u.text := by simp [text, tokens, textOfTokens]

/-- Literals are named. -/
lemma IsLiteral.isNamed (h : t.IsLiteral) : t.isNamed = true := by
  cases h with
  | string hkind =>
    rw [Tree.isNamed, hkind]
    rfl
  | template _ => rfl

/-- Literals are no wrappers. -/
lemma IsLiteral.unwrap_eq (h : t.IsLiteral) : t.unwrap = t := by
  cases h <;> rfl

/-- The value of a literal is what its text between the marks is decoded to. -/
lemma IsLiteral.literalValue?_eq (h : t.IsLiteral) :
    t.literalValue? = some (String.ofList (unescape (innerText t.text))) := by
  cases h with
  | string hkind =>
    rw [literalValue?, hkind, text_leaf]
    rfl
  | template hparts =>
    rw [literalValue?, if_pos]
    simpa using hparts

/-- A written string is the value of its literal. -/
lemma IsLiteral.literalValue?_of_text (h : t.IsLiteral) (htext : t.text = m.literal s) :
    t.literalValue? = some s := by
  rw [h.literalValue?_eq, htext, unescape_innerText_literal, String.ofList_toList]

/-- It is so in any wrappers. -/
lemma StandsIn.stringValue?_eq (hu : StandsIn t u) (h : t.IsLiteral) :
    u.stringValue? = t.literalValue? := by
  rw [stringValue?, hu.unwrap_eq h.isNamed, h.unwrap_eq]

end Tree

end RouteAssets.Script
