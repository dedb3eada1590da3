import RouteAssets.Registration.Entry
import Mathlib.Data.List.Infix

/-!
# Quoted strings in registration texts

A text is read from left to right as plain characters and quoted strings. A string ends at the next
quote of its own kind that no backslash stands before, and a string without such a quote runs to the
end of the text.

* **Contents** (`IsContent`): what stands between the quotes. Every text splits into a content and
  what ends it (`exists_content`), and in one way only (`content_unique`).
* **Readings** (`Reads`): a text that ends outside strings, with its plain characters. They are
  determined (`Reads.unique`), also when more text follows (`Reads.of_append`).
* **Induction** (`reading_induction`): a text is empty, or it starts with a plain character, with a
  closed string, or with a string that stays open.
* **Depth** (`depthOf`): the opening brackets less the closing ones.
-/

namespace RouteAssets.Registration

/-! ## Contents -/

/-- The content of a string: its quote occurs only behind a backslash, and a backslash takes one
more character with it. -/
inductive IsContent (quote : Char) : List Char → Prop
  | nil : IsContent quote []
  | char {c : Char} {cs : List Char} (hescape : c ≠ '\\') (hquote : c ≠ quote)
      (hcontent : IsContent quote cs) : IsContent quote (c :: cs)
  | escaped {c : Char} {cs : List Char} (hcontent : IsContent quote cs) :
      IsContent quote ('\\' :: c :: cs)

/-- What is behind the content of a string: its quote, or the end of the text, perhaps with a
backslash that has nothing to escape. -/
def EndsContent (quote : Char) (rest : List Char) : Prop :=
  rest = [] ∨ rest = ['\\'] ∨ ∃ cs, rest = quote :: cs

section Contents

variable {quote c : Char} {cs content content' rest rest' : List Char}

/-- The backslash is no quote. -/
lemma ne_backslash_of_isQuote (h : isQuote c = true) : c ≠ '\\' := by
  rintro rfl
  revert h
  decide

/-- Every text splits into a content and what ends it. -/
lemma exists_content (quote : Char) :
    (cs : List Char) → ∃ content rest, IsContent quote content ∧ EndsContent quote rest ∧
      cs = content ++ rest
  | [] => ⟨[], [], .nil, Or.inl rfl, rfl⟩
  | c :: cs => by
    by_cases hescape : c = '\\'
    · subst hescape
      rcases cs with _ | ⟨d, cs⟩
      · exact ⟨[], ['\\'], .nil, Or.inr (Or.inl rfl), rfl⟩
      · obtain ⟨content, rest, hcontent, hrest, rfl⟩ := exists_content quote cs
        exact ⟨'\\' :: d :: content, rest, .escaped hcontent, hrest, rfl⟩
    · by_cases hquote : c = quote
      · exact ⟨[], c :: cs, .nil, Or.inr (Or.inr ⟨cs, by rw [hquote]⟩), rfl⟩
      · obtain ⟨content, rest, hcontent, hrest, rfl⟩ := exists_content quote cs
        exact ⟨c :: content, rest, .char hescape hquote hcontent, hrest, rfl⟩

/-- A character of a content is not where the content ends. -/
lemma not_endsContent_char (hescape : c ≠ '\\') (hquote : c ≠ quote) :
    ¬ EndsContent quote (c :: cs) := by
  rintro (h | h | ⟨_, h⟩)
  · cases h
  · exact hescape (List.cons.inj h).1
  · exact hquote (List.cons.inj h).1

/-- A backslash with a character behind it is not where the content ends. -/
lemma not_endsContent_escaped (hquote : isQuote quote = true) :
    ¬ EndsContent quote ('\\' :: c :: cs) := by
  rintro (h | h | ⟨_, h⟩)
  · cases h
  · cases h
  · exact ne_backslash_of_isQuote hquote (List.cons.inj h).1.symm

/-- A text splits into a content and what ends it in one way only. -/
lemma content_unique (hquote : isQuote quote = true) (hcontent : IsContent quote content)
    (hcontent' : IsContent quote content') (hrest : EndsContent quote rest)
    (hrest' : EndsContent quote rest') (h : content ++ rest = content' ++ rest') :
    content = content' ∧ rest = rest' := by
  induction hcontent generalizing content' with
  | nil =>
    rw [List.nil_append] at h
    subst h
    cases hcontent' with
    | nil => exact ⟨rfl, rfl⟩
    | char hescape hne _ => exact absurd hrest (not_endsContent_char hescape hne)
    | escaped _ => exact absurd hrest (not_endsContent_escaped hquote)
  | char hescape hne _ ih =>
    cases hcontent' with
    | nil =>
      rw [List.nil_append] at h
      subst h
      exact absurd hrest' (not_endsContent_char hescape hne)
    | char _ _ hcontent' =>
      obtain ⟨rfl, htail⟩ := List.cons.inj h
      obtain ⟨rfl, hrests⟩ := ih hcontent' htail
      exact ⟨rfl, hrests⟩
    | escaped _ => exact absurd (List.cons.inj h).1 hescape
  | escaped _ ih =>
    cases hcontent' with
    | nil =>
      rw [List.nil_append] at h
      subst h
      exact absurd hrest' (not_endsContent_escaped hquote)
    | char hescape _ _ => exact absurd (List.cons.inj h).1.symm hescape
    | escaped hcontent' =>
      obtain ⟨rfl, htail⟩ := List.cons.inj (List.cons.inj h).2
      obtain ⟨rfl, hrests⟩ := ih hcontent' htail
      exact ⟨rfl, hrests⟩

/-- The quote of a string ends its content. -/
lemma endsContent_quote (quote : Char) (cs : List Char) : EndsContent quote (quote :: cs) :=
  Or.inr (Or.inr ⟨cs, rfl⟩)

end Contents

/-! ## Readings -/

/-- A text that is read as plain characters and closed strings, with its plain characters in
order. -/
inductive Reads : List Char → List Char → Prop
  | nil : Reads [] []
  | char {c : Char} {cs plain : List Char} (hplain : isQuote c = false) (hrest : Reads cs plain) :
      Reads (c :: cs) (c :: plain)
  | string {quote : Char} {content cs plain : List Char} (hquote : isQuote quote = true)
      (hcontent : IsContent quote content) (hrest : Reads cs plain) :
      Reads (quote :: (content ++ quote :: cs)) plain

section Readings

variable {quote c : Char} {cs cs' content plain plain' rest : List Char}

/-- Plain characters are read as they are. -/
lemma reads_of_plain (h : ∀ c ∈ cs, isQuote c = false) : Reads cs cs := by
  induction cs with
  | nil => exact .nil
  | cons c cs ih =>
    rw [List.forall_mem_cons] at h
    exact .char h.1 (ih h.2)

/-- Texts are read one after another. -/
lemma Reads.append (h : Reads cs plain) (h' : Reads cs' plain') :
    Reads (cs ++ cs') (plain ++ plain') := by
  induction h with
  | nil => exact h'
  | char hplain _ ih => exact .char hplain ih
  | string hquote hcontent _ ih =>
    rw [List.cons_append, List.append_assoc, List.cons_append]
    exact .string hquote hcontent ih

/-- What starts with a plain character is read as this character and what follows. -/
lemma reads_char_iff (hplain : isQuote c = false) :
    Reads (c :: cs) plain ↔ ∃ rest, Reads cs rest ∧ plain = c :: rest := by
  constructor
  · intro h
    cases h with
    | char _ hrest => exact ⟨_, hrest, rfl⟩
    | string hquote _ _ => simp [hquote] at hplain
  · rintro ⟨rest, hrest, rfl⟩
    exact .char hplain hrest

/-- A text that starts with a quote is read only as far as the string is closed. -/
lemma Reads.exists_string (hquote : isQuote quote = true) (h : Reads (quote :: cs) plain) :
    ∃ content rest, IsContent quote content ∧ cs = content ++ quote :: rest ∧ Reads rest plain := by
  cases h with
  | char hplain _ => simp [hquote] at hplain
  | string _ hcontent hrest => exact ⟨_, _, hcontent, rfl, hrest⟩

/-- What is read behind a text that is read. -/
lemma Reads.of_append (h : Reads cs plain) (hall : Reads (cs ++ cs') plain') :
    ∃ rest, Reads cs' rest ∧ plain' = plain ++ rest := by
  induction h generalizing plain' with
  | nil => exact ⟨plain', hall, rfl⟩
  | char hplain _ ih =>
    obtain ⟨tail, htail, rfl⟩ := (reads_char_iff hplain).1 hall
    obtain ⟨rest, hrest, rfl⟩ := ih htail
    exact ⟨rest, hrest, rfl⟩
  | @string quote content cs plain hquote hcontent _ ih =>
    rw [List.cons_append, List.append_assoc, List.cons_append] at hall
    obtain ⟨content', tail, hcontent', htext, htail⟩ := hall.exists_string hquote
    obtain ⟨-, hends⟩ := content_unique hquote hcontent hcontent' (endsContent_quote quote _)
      (endsContent_quote quote _) htext
    obtain ⟨-, rfl⟩ := List.cons.inj hends
    exact ih htail

/-- The plain characters of a text are determined. -/
lemma Reads.unique (h : Reads cs plain) (h' : Reads cs plain') : plain' = plain := by
  rw [← List.append_nil cs] at h'
  obtain ⟨rest, hrest, rfl⟩ := h.of_append h'
  cases hrest
  rw [List.append_nil]

/-- **Induction on a text as it is read.** -/
@[elab_as_elim]
lemma reading_induction {motive : List Char → Prop} (nil : motive [])
    (char : ∀ c cs, isQuote c = false → motive cs → motive (c :: cs))
    (string : ∀ quote content cs, isQuote quote = true → IsContent quote content → motive cs →
      motive (quote :: (content ++ quote :: cs)))
    (unclosed : ∀ quote content rest, isQuote quote = true → IsContent quote content →
      rest = [] ∨ rest = ['\\'] → motive (quote :: (content ++ rest)))
    (cs : List Char) : motive cs := by
  induction hn : cs.length using Nat.strong_induction_on generalizing cs with
  | _ n ih =>
    subst hn
    rcases cs with _ | ⟨c, cs⟩
    · exact nil
    · cases hquote : isQuote c with
      | false => exact char c cs hquote (ih cs.length (by simp) cs rfl)
      | true =>
        obtain ⟨content, rest, hcontent, hrest, rfl⟩ := exists_content c cs
        rcases hrest with hrest | hrest | ⟨cs, rfl⟩
        · exact unclosed c content rest hquote hcontent (Or.inl hrest)
        · exact unclosed c content rest hquote hcontent (Or.inr hrest)
        · refine string c content cs hquote hcontent (ih cs.length ?_ cs rfl)
          simp only [List.length_cons, List.length_append]
          omega

end Readings

/-! ## Depth -/

/-- How many brackets some characters leave open: the opening ones less the closing ones. -/
def depthOf (plain : List Char) : Int := (plain.countP isOpener : Int) - plain.countP isCloser

@[simp] lemma depthOf_nil : depthOf [] = 0 := rfl

/-- The brackets of texts add up. -/
@[simp] lemma depthOf_append (plain plain' : List Char) :
    depthOf (plain ++ plain') = depthOf plain + depthOf plain' := by
  unfold depthOf
  rw [List.countP_append, List.countP_append]
  omega

/-- A character in front adds its own bracket. -/
lemma depthOf_cons (c : Char) (plain : List Char) :
    depthOf (c :: plain) = depthOf [c] + depthOf plain :=
  depthOf_append [c] plain

end RouteAssets.Registration
