import RouteAssets.Proofs.Script.Lossless

/-!
# Lexemes are cut off exactly

Each function that splits a lexeme off a text gives back, together, the text that it was given: of
escapes, strings, numbers, regular expressions, and the inner text of templates and markup.
-/

namespace RouteAssets.Script

/-! ## Escapes and strings -/

/-- The rest of an escape: what was read before, then the text. -/
lemma escapeTail_eq_append {state : EscapeState} {acc cs taken rest : List Char}
    (h : escapeTail state acc cs = some (taken, rest)) : acc.reverse ++ cs = taken ++ rest := by
  fun_induction escapeTail state acc cs <;> simp_all
  case case7 =>
    obtain ⟨rfl, rfl⟩ := h
    simp

instance : Splits splitEscape := ⟨by
  intro cs taken rest h
  unfold splitEscape at h
  split at h
  · exact escapeTail_eq_append h
  · cases h⟩

/-- The rest of a string: what was read before, then the text. -/
lemma stringTail_eq_append {mark : Char} {state : EscapeState} {acc cs taken rest : List Char}
    (h : stringTail mark state acc cs = some (taken, rest)) : acc.reverse ++ cs = taken ++ rest := by
  induction cs generalizing state acc with
  | nil => simp [stringTail] at h
  | cons c cs ih =>
    -- wherever the string goes on, one character moves over to what has been read
    have hmore : ∀ {s : Option EscapeState},
        (s.bind fun s => stringTail mark s (c :: acc) cs) = some (taken, rest) →
          acc.reverse ++ c :: cs = taken ++ rest := by
      intro s hs
      obtain ⟨s, -, hs⟩ := Option.bind_eq_some_iff.1 hs
      rw [← ih hs, List.reverse_cons, List.append_assoc, List.singleton_append]
    unfold stringTail at h
    split at h
    · simp only [Option.some.injEq, Prod.mk.injEq] at h
      obtain ⟨rfl, rfl⟩ := h
      simp
    · split at h
      · split at h
        · cases h
        · exact hmore h
      · split at h
        · cases h
        · exact hmore h
      · exact hmore h

instance : Splits splitString := ⟨by
  intro cs taken rest h
  unfold splitString at h
  split at h
  · split at h
    · exact stringTail_eq_append h
    · cases h
  · cases h⟩

/-! ## Numbers -/

/-- Digits and what follows them make up the text. -/
lemma splitDigits_append (isDigit : Char → Bool) (cs : List Char) :
    (splitDigits isDigit cs).1 ++ (splitDigits isDigit cs).2 = cs := by
  fun_induction splitDigits isDigit cs <;> simp_all

/-- An exponent and what follows it make up the text. -/
lemma splitExponent_append (cs : List Char) : (splitExponent cs).1 ++ (splitExponent cs).2 = cs := by
  unfold splitExponent
  split
  · rename_i e r
    split
    · split
      rename_i sign r' hsign
      have hr : sign ++ r' = r := by
        split at hsign
        · split at hsign <;> cases hsign <;> rfl
        · cases hsign
          rfl
      split
      · rfl
      · rename_i ds rest hne hds
        have happend := splitDigits_append Char.isDigit r'
        rw [hds] at happend
        simp only [List.cons_append, List.append_assoc]
        rw [happend, hr]
    · rfl
  · rfl

/-- The mark of a big integer and what follows it make up the text. -/
lemma splitBigMark_append (cs : List Char) : (splitBigMark cs).1 ++ (splitBigMark cs).2 = cs := by
  unfold splitBigMark
  split <;> rfl

instance : Splits splitDecimal := ⟨by
  intro cs taken rest h
  have hwhole := splitDigits_append Char.isDigit cs
  rcases hd : splitDigits Char.isDigit cs with ⟨whole, after⟩
  rw [hd] at hwhole
  simp only [splitDecimal, hd] at h
  rw [← hwhole]
  split at h
  · rename_i r
    rcases hf : (if r.head?.any Char.isDigit then splitDigits Char.isDigit r else ([], r)) with
      ⟨fraction, r'⟩
    have hfraction : fraction ++ r' = r := by
      split at hf
      · have happend := splitDigits_append Char.isDigit r
        rwa [hf] at happend
      · cases hf
        rfl
    have hexponent := splitExponent_append r'
    simp only [hf, Option.some.injEq, Prod.mk.injEq] at h
    obtain ⟨rfl, rfl⟩ := h
    simp [← hfraction, hexponent]
  · simp only [Option.some.injEq, Prod.mk.injEq] at h
    obtain ⟨rfl, rfl⟩ := h
    simp
  · have hexponent := splitExponent_append after
    simp only [Option.some.injEq, Prod.mk.injEq] at h
    obtain ⟨rfl, rfl⟩ := h
    simp [hexponent]⟩

/-- A number with a radix letter: its zero and its letter, then the text. -/
lemma splitRadix_eq_append {letter : Char} {isDigit : Char → Bool} {cs taken rest : List Char}
    (h : splitRadix letter isDigit cs = some (taken, rest)) :
    '0' :: letter :: cs = taken ++ rest := by
  have hdigits := splitDigits_append isDigit cs
  unfold splitRadix at h
  split at h
  · rename_i ds after _ hd
    have hmark := splitBigMark_append after
    rw [hd] at hdigits
    simp only [Option.some.injEq, Prod.mk.injEq] at h
    obtain ⟨rfl, rfl⟩ := h
    simp [hmark, hdigits]
  · cases h

instance : Splits splitNumber := ⟨by
  intro cs taken rest h
  unfold splitNumber at h
  split at h
  · repeat' split at h
    · exact splitRadix_eq_append h
    · exact splitRadix_eq_append h
    · exact splitRadix_eq_append h
    · exact Splits.eq_append h
  · rename_i r
    have hdigits := splitDigits_append Char.isDigit r
    split at h
    · cases h
    · rename_i ds after _ hd
      have hexponent := splitExponent_append after
      rw [hd] at hdigits
      simp only [Option.ite_none_right_eq_some, Option.some.injEq, Prod.mk.injEq] at h
      obtain ⟨-, rfl, rfl⟩ := h
      simp [hexponent, hdigits]
  · split at h
    · exact Splits.eq_append h
    · cases h
  · cases h⟩

/-! ## Regular expressions -/

/-- The rest of a regular expression: what was read before, then the text. -/
lemma regexTail_eq_append {inClass escaped : Bool} {acc cs taken rest : List Char}
    (h : regexTail inClass escaped acc cs = some (taken, rest)) :
    acc.reverse ++ cs = taken ++ rest := by
  fun_induction regexTail inClass escaped acc cs <;> simp_all
  case case7 =>
    obtain ⟨rfl, rfl⟩ := h
    simp

instance : Splits splitRegex := ⟨by
  intro cs taken rest h
  unfold splitRegex at h
  split at h
  · split at h
    · cases h
    · split at h
      · cases h
      · rename_i body after hbody
        have happend := regexTail_eq_append hbody
        rw [List.span_eq_takeWhile_dropWhile] at h
        simp only [Option.some.injEq, Prod.mk.injEq] at h
        obtain ⟨rfl, rfl⟩ := h
        rw [List.append_assoc, List.takeWhile_append_dropWhile]
        exact happend
  · cases h⟩

/-! ## Inner text of templates and markup -/

/-- The text of a template and what follows it make up the text. -/
lemma splitTemplateText_append (cs : List Char) :
    (splitTemplateText cs).1 ++ (splitTemplateText cs).2 = cs := by
  fun_induction splitTemplateText cs <;> simp_all

/-- The end of a character reference: its opening, its characters and what follows them. -/
lemma closed_eq_append {opening taken rest : List Char} {body : List Char × List Char} {limit : Nat}
    (h : splitCharacterReference.closed opening body limit = some (taken, rest)) :
    opening ++ (body.1 ++ body.2) = taken ++ rest := by
  unfold splitCharacterReference.closed at h
  split at h
  · cases h
  · simp only [Option.ite_none_right_eq_some, Option.some.injEq, Prod.mk.injEq] at h
    obtain ⟨-, rfl, rfl⟩ := h
    simp
  · cases h

/-- What a test admits and what follows it make up the text. -/
lemma span_append (p : Char → Bool) (cs : List Char) : (cs.span p).1 ++ (cs.span p).2 = cs := by
  rw [List.span_eq_takeWhile_dropWhile]
  exact List.takeWhile_append_dropWhile

instance : Splits splitCharacterReference := ⟨by
  intro cs taken rest h
  unfold splitCharacterReference at h
  split at h
  · split at h <;> rw [← closed_eq_append h, span_append] <;> rfl
  · rw [← closed_eq_append h, span_append]
    rfl
  · cases h⟩

instance : Splits splitMarkupText := ⟨by
  intro cs taken rest h
  unfold splitMarkupText at h
  split at h
  · cases h
  · rw [← span_append _ cs, Option.some.inj h]⟩

/-- The rest of an attribute value: what was read before, then the text. -/
lemma attributeTail_eq_append {mark : Char} {n : Nat} {acc cs taken rest : List Char}
    (h : attributeTail mark n acc cs = some (taken, rest)) : acc.reverse ++ cs = taken ++ rest := by
  induction n generalizing acc cs with
  | zero => cases h
  | succ n ih =>
    rcases cs with _ | ⟨c, cs⟩
    · cases h
    · unfold attributeTail at h
      split at h
      · simp only [Option.some.injEq, Prod.mk.injEq] at h
        obtain ⟨rfl, rfl⟩ := h
        simp
      · split at h
        · split at h
          · cases h
          · rename_i ref after href
            rw [← ih h, Splits.eq_append href]
            simp
        · rw [← ih h]
          simp

instance : Splits splitAttributeValue := ⟨by
  intro cs taken rest h
  unfold splitAttributeValue at h
  split at h
  · split at h
    · exact attributeTail_eq_append h
    · cases h
  · cases h⟩

instance : Splits splitMarkupName := ⟨by
  intro cs taken rest h
  unfold splitMarkupName at h
  split at h
  · cases h
  · simp only [Option.ite_none_right_eq_some] at h
    rw [← span_append _ (_ :: _), Option.some.inj h.2]⟩

instance : Splits splitHashBang := ⟨by
  intro cs taken rest h
  unfold splitHashBang at h
  split at h
  · simp only [Option.some.injEq, Prod.mk.injEq] at h
    obtain ⟨rfl, rfl⟩ := h
    simp
  · cases h⟩

/-! ## Rules for literals -/

namespace Rule

instance : Lossless string := inferInstanceAs (Lossless (lexeme _ _))

instance : Lossless number := inferInstanceAs (Lossless (lexeme _ _))

instance : Lossless regex := inferInstanceAs (Lossless (lexeme _ _))

/-- Template text as a lexeme: none where it would be empty. -/
lemma lossless_templateText : Lossless fun c =>
    match splitTemplateText c.rest with
    | ([], _) => none
    | (text, rest) => emit .templateText text rest c := ⟨by
  intro c ts c' h
  have happend := splitTemplateText_append c.rest
  split at h
  · cases h
  · rename_i text rest _ hsplit
    rw [hsplit] at happend
    exact emit_remaining happend.symm h⟩

instance : Lossless templateText :=
  have := lossless_templateText
  inferInstanceAs (Lossless (raw _))

instance {inner : Rule} [Lossless inner] : Lossless (template inner) :=
  inferInstanceAs (Lossless (node _ (seq _)))

end Rule

end RouteAssets.Script
