import RouteAssets.Proofs.Registration.Grammar
import RouteAssets.Proofs.Registration.Quoting
import Mathlib.Order.Bounds.Basic

/-!
# Where a value ends

A value ends at the first comma, closing bracket or key that stands outside strings and outside the
brackets that the value has opened, and with the text if there is none.

* **Ends** (`IsEndFrom`): the places where a value could end, said of the text in front of the place
  and the text behind it. A character or a string in front of a text shifts its ends
  (`isEndFrom_char_iff`, `isEndFrom_string_iff`), a string that stays open leaves none
  (`not_isEndFrom_unclosed`).
* **Extent** (`isExtent_valueLengthFrom`): the scan stops at the first end, by induction on the text
  as it is read; its state is the number of open brackets.
* **Offsets** (`valueEnd_isLeast`): the same for a value inside a text.
-/

namespace RouteAssets.Registration

/-! ## Ends -/

/-- What a value ends in front of, outside of its brackets and strings. -/
def StopsValue (cs : List Char) : Prop :=
  (∃ c rest, cs = c :: rest ∧ (c = ',' ∨ isCloser c = true)) ∨ StartsWithKey cs

/-- A value that goes on from `depth` open brackets could end behind `n` characters: they are read
outside strings, no bracket is left open, and what follows stops the value. -/
def IsEndFrom (depth : Int) (cs : List Char) (n : Nat) : Prop :=
  ∃ plain, Reads (cs.take n) plain ∧ depth + depthOf plain = 0 ∧ StopsValue (cs.drop n)

/-- The length of a value: up to its first end, or the whole text. -/
def IsExtent (depth : Int) (cs : List Char) (n : Nat) : Prop :=
  IsLeast {m | IsEndFrom depth cs m} n ∨ (∀ m, ¬ IsEndFrom depth cs m) ∧ n = cs.length

section Ends

variable {depth depth' : Int} {cs u content rest : List Char} {c quote : Char} {n m : Nat}

/-- No value ends behind the end of the text. -/
lemma not_stopsValue_nil : ¬ StopsValue [] := by
  rintro (⟨c, rest, h, -⟩ | h)
  · cases h
  · obtain ⟨rest, h⟩ := h.exists_eq_cons
    cases h

/-- An end is a place inside the text. -/
lemma IsEndFrom.lt_length (h : IsEndFrom depth cs n) : n < cs.length := by
  obtain ⟨plain, -, -, hstop⟩ := h
  by_contra hn
  rw [List.drop_eq_nil_of_le (by omega)] at hstop
  exact not_stopsValue_nil hstop

/-- A value ends at once if no bracket is open and the text stops it. -/
lemma isEndFrom_zero_iff : IsEndFrom depth cs 0 ↔ depth = 0 ∧ StopsValue cs := by
  constructor
  · rintro ⟨plain, hreads, hdepth, hstop⟩
    cases hreads
    rw [depthOf_nil, Int.add_zero] at hdepth
    exact ⟨hdepth, hstop⟩
  · rintro ⟨rfl, hstop⟩
    exact ⟨[], .nil, rfl, hstop⟩

/-- A plain character in front of a text shifts its ends. -/
lemma isEndFrom_char_iff (hplain : isQuote c = false) :
    IsEndFrom depth (c :: cs) (n + 1) ↔ IsEndFrom (depth + depthOf [c]) cs n := by
  unfold IsEndFrom
  rw [List.take_succ_cons, List.drop_succ_cons]
  constructor
  · rintro ⟨plain, hreads, hdepth, hstop⟩
    obtain ⟨rest, hrest, rfl⟩ := (reads_char_iff hplain).1 hreads
    rw [depthOf_cons] at hdepth
    exact ⟨rest, hrest, by omega, hstop⟩
  · rintro ⟨rest, hrest, hdepth, hstop⟩
    refine ⟨c :: rest, .char hplain hrest, ?_, hstop⟩
    rw [depthOf_cons]
    omega

/-- Neither a comma nor a closing bracket is a quote. -/
lemma isQuote_of_stops (hc : c = ',' ∨ isCloser c = true) : isQuote c = false := by
  rcases hc with rfl | hc
  · decide
  · simp only [isCloser, Bool.or_eq_true, beq_iff_eq] at hc
    rcases hc with (rfl | rfl) | rfl <;> decide

/-- A quote does not stop a value. -/
lemma not_stopsValue_quote (hquote : isQuote quote = true) : ¬ StopsValue (quote :: cs) := by
  rintro (⟨c, rest, h, hc⟩ | h)
  · obtain ⟨rfl, -⟩ := List.cons.inj h
    rw [isQuote_of_stops hc] at hquote
    cases hquote
  · obtain ⟨rest, h⟩ := h.exists_eq_cons
    obtain ⟨rfl, -⟩ := List.cons.inj h
    revert hquote
    decide

/-- What is read of a text that starts with a quote closes the string. -/
lemma IsEndFrom.exists_string (hquote : isQuote quote = true)
    (h : IsEndFrom depth (quote :: cs) n) :
    ∃ content rest m, IsContent quote content ∧ cs = content ++ quote :: rest ∧
      n = m + (content.length + 2) ∧ IsEndFrom depth rest m := by
  obtain ⟨plain, hreads, hdepth, hstop⟩ := h
  rcases n with _ | n
  · exact absurd hstop (not_stopsValue_quote hquote)
  · rw [List.take_succ_cons] at hreads
    rw [List.drop_succ_cons] at hstop
    obtain ⟨content, front, hcontent, htake, hfront⟩ := hreads.exists_string hquote
    have hn : n ≤ cs.length := by
      by_contra hn
      rw [List.drop_eq_nil_of_le (by omega)] at hstop
      exact not_stopsValue_nil hstop
    have hlength : n = front.length + (content.length + 1) := by
      have h := congrArg List.length htake
      rw [List.length_take_of_le hn, List.length_append, List.length_cons] at h
      omega
    have hcs : cs = content ++ quote :: (front ++ cs.drop n) := by
      rw [← List.cons_append, ← List.append_assoc, ← htake, List.take_append_drop]
    refine ⟨content, front ++ cs.drop n, front.length, hcontent, hcs, by omega, plain, ?_, hdepth, ?_⟩
    · rwa [List.take_left]
    · rwa [List.drop_left]

/-- A closed string in front of a text shifts its ends. -/
lemma isEndFrom_string_iff (hquote : isQuote quote = true) (hcontent : IsContent quote content) :
    IsEndFrom depth (quote :: (content ++ quote :: cs)) n ↔
      ∃ m, n = m + (content.length + 2) ∧ IsEndFrom depth cs m := by
  constructor
  · intro h
    obtain ⟨content', rest, m, hcontent', htext, hn, hend⟩ := h.exists_string hquote
    obtain ⟨rfl, htail⟩ := content_unique hquote hcontent hcontent' (endsContent_quote quote _)
      (endsContent_quote quote _) htext
    obtain ⟨-, rfl⟩ := List.cons.inj htail
    exact ⟨m, hn, hend⟩
  · rintro ⟨m, rfl, plain, hreads, hdepth, hstop⟩
    have htext : quote :: (content ++ quote :: cs) = (quote :: (content ++ [quote])) ++ cs := by simp
    have hlength : m + (content.length + 2) = (quote :: (content ++ [quote])).length + m := by
      simp
      omega
    rw [htext, hlength]
    refine ⟨plain, ?_, hdepth, ?_⟩
    · rw [List.take_length_add_append, List.cons_append, List.append_assoc]
      exact .string hquote hcontent hreads
    · rwa [List.drop_length_add_append]

/-- A string that stays open leaves no end behind it. -/
lemma not_isEndFrom_unclosed (hquote : isQuote quote = true) (hcontent : IsContent quote content)
    (hrest : rest = [] ∨ rest = ['\\']) : ¬ IsEndFrom depth (quote :: (content ++ rest)) n := by
  intro h
  obtain ⟨content', rest', -, hcontent', htext, -⟩ := h.exists_string hquote
  have hends : EndsContent quote rest := by
    rcases hrest with hrest | hrest
    · exact Or.inl hrest
    · exact Or.inr (Or.inl hrest)
  obtain ⟨-, rfl⟩ := content_unique hquote hcontent hcontent' hends (endsContent_quote quote _) htext
  rcases hrest with hrest | hrest
  · cases hrest
  · exact ne_backslash_of_isQuote hquote (List.cons.inj hrest).1

/-- Where the ends of a text are those of its rest, so is its extent. -/
lemma IsExtent.shift (h : IsExtent depth cs n)
    (hends : ∀ m, IsEndFrom depth' (u ++ cs) m ↔ ∃ k, m = k + u.length ∧ IsEndFrom depth cs k) :
    IsExtent depth' (u ++ cs) (n + u.length) := by
  rcases h with ⟨hend, hleast⟩ | ⟨hnone, rfl⟩
  · refine Or.inl ⟨(hends _).2 ⟨n, rfl, hend⟩, ?_⟩
    intro m hm
    obtain ⟨k, rfl, hk⟩ := (hends m).1 hm
    exact Nat.add_le_add_right (hleast hk) _
  · refine Or.inr ⟨fun m hm => ?_, ?_⟩
    · obtain ⟨k, -, hk⟩ := (hends m).1 hm
      exact hnone k hk
    · rw [List.length_append, Nat.add_comm]

end Ends

/-! ## Extent -/

section Extent

variable {quote c : Char} {content cs rest : List Char} {depth : Nat}

/-- A character of a string belongs to the value, and so does one behind a backslash. -/
lemma valueLengthFrom_inside (quote c : Char) (depth : Nat) (cs : List Char) :
    valueLengthFrom (.string quote) depth (c :: cs) =
      valueLengthFrom (Region.afterStringChar quote c) depth cs + 1 ∧
    valueLengthFrom (.escape quote) depth (c :: cs) =
      valueLengthFrom (.string quote) depth cs + 1 := by
  constructor
  · rw [valueLengthFrom]
  · rw [valueLengthFrom]

/-- A character outside strings is looked at: a quote, what stops a value, or a bracket. -/
lemma valueLengthFrom_plain (c : Char) (depth : Nat) (cs : List Char) :
    valueLengthFrom .plain depth (c :: cs) =
      if isQuote c then valueLengthFrom (.string c) depth cs + 1
      else if depth == 0 && (c == ',' || isCloser c || (keyAt? (c :: cs)).isSome) then 0
      else if isOpener c then valueLengthFrom .plain (depth + 1) cs + 1
      else if isCloser c then valueLengthFrom .plain (depth - 1) cs + 1
      else valueLengthFrom .plain depth cs + 1 := by
  rw [valueLengthFrom]
  · simp
  · simp

/-- The content of a string belongs to the value. -/
lemma valueLengthFrom_content (hcontent : IsContent quote content) :
    valueLengthFrom (.string quote) depth (content ++ rest) =
      valueLengthFrom (.string quote) depth rest + content.length := by
  induction hcontent with
  | nil => rfl
  | char hescape hne _ ih =>
    rw [List.cons_append, (valueLengthFrom_inside quote _ depth _).1, Region.afterStringChar,
      if_neg (by simpa using hescape), if_neg (by simpa using hne), ih, List.length_cons,
      Nat.add_assoc]
  | escaped _ ih =>
    rw [List.cons_append, List.cons_append, (valueLengthFrom_inside quote _ depth _).1,
      Region.afterStringChar, if_pos (by rfl), (valueLengthFrom_inside quote _ depth _).2, ih,
      List.length_cons, List.length_cons]
    omega

/-- A closed string belongs to the value. -/
lemma valueLengthFrom_string (hquote : isQuote quote = true) (hcontent : IsContent quote content) :
    valueLengthFrom .plain depth (quote :: (content ++ quote :: cs)) =
      valueLengthFrom .plain depth cs + (content.length + 2) := by
  have hne : (quote == '\\') = false := by simpa using ne_backslash_of_isQuote hquote
  rw [valueLengthFrom_plain, if_pos hquote, valueLengthFrom_content hcontent,
    (valueLengthFrom_inside quote quote depth cs).1, Region.afterStringChar, hne,
    if_neg Bool.false_ne_true, if_pos (by simp)]
  omega

/-- A string that stays open belongs to the value. -/
lemma valueLengthFrom_unclosed (hquote : isQuote quote = true) (hcontent : IsContent quote content)
    (hrest : rest = [] ∨ rest = ['\\']) :
    valueLengthFrom .plain depth (quote :: (content ++ rest)) =
      (quote :: (content ++ rest)).length := by
  have htail : valueLengthFrom (.string quote) depth rest = rest.length := by
    rcases hrest with rfl | rfl
    · rfl
    · rfl
  rw [valueLengthFrom_plain, if_pos hquote, valueLengthFrom_content hcontent, htail,
    List.length_cons, List.length_append]
  omega

/-- The scan stops where a value without open brackets is stopped. -/
lemma valueLengthFrom_of_stops (hplain : isQuote c = false) (h : StopsValue (c :: cs)) :
    valueLengthFrom .plain 0 (c :: cs) = 0 := by
  rw [valueLengthFrom_plain, if_neg (by simp [hplain]), if_pos]
  simp only [beq_self_eq_true, Bool.true_and, Bool.or_eq_true, beq_iff_eq, isSome_keyAt?_iff]
  rcases h with ⟨d, rest, hcons, hd⟩ | h
  · obtain ⟨rfl, -⟩ := List.cons.inj hcons
    exact Or.inl hd
  · exact Or.inr h

/-- An opening bracket counts one. -/
lemma depthOf_opener (h : isOpener c = true) : depthOf [c] = 1 := by
  simp only [isOpener, Bool.or_eq_true, beq_iff_eq] at h
  rcases h with (rfl | rfl) | rfl <;> rfl

/-- A closing bracket takes one back. -/
lemma depthOf_closer (h : isCloser c = true) : depthOf [c] = -1 := by
  simp only [isCloser, Bool.or_eq_true, beq_iff_eq] at h
  rcases h with (rfl | rfl) | rfl <;> rfl

/-- Other characters do not count. -/
lemma depthOf_other (hopener : isOpener c = false) (hcloser : isCloser c = false) :
    depthOf [c] = 0 := by
  simp [depthOf, hopener, hcloser]

/-- Where the value is not stopped, the scan goes on with the brackets that are open then. -/
lemma exists_valueLengthFrom_char (hplain : isQuote c = false)
    (h : ¬ (depth = 0 ∧ StopsValue (c :: cs))) :
    ∃ depth' : Nat, (depth' : Int) = depth + depthOf [c] ∧
      valueLengthFrom .plain depth (c :: cs) = valueLengthFrom .plain depth' cs + 1 := by
  have hgoes : (depth == 0 && (c == ',' || isCloser c || (keyAt? (c :: cs)).isSome)) = false := by
    rw [Bool.eq_false_iff]
    intro hstop
    simp only [Bool.and_eq_true, Bool.or_eq_true, beq_iff_eq, isSome_keyAt?_iff] at hstop
    refine h ⟨hstop.1, ?_⟩
    rcases hstop.2 with hc | hkey
    · exact Or.inl ⟨c, cs, rfl, hc⟩
    · exact Or.inr hkey
  rw [valueLengthFrom_plain, if_neg (by simp [hplain]), hgoes, if_neg Bool.false_ne_true]
  cases hopener : isOpener c with
  | true =>
    refine ⟨depth + 1, ?_, by rw [if_pos rfl]⟩
    rw [depthOf_opener hopener]
    push_cast
    rfl
  | false =>
    rw [if_neg Bool.false_ne_true]
    cases hcloser : isCloser c with
    | true =>
      -- A closing bracket at depth zero would have stopped the value.
      have hpos : depth ≠ 0 := fun h0 => h ⟨h0, Or.inl ⟨c, cs, rfl, Or.inr hcloser⟩⟩
      refine ⟨depth - 1, ?_, by rw [if_pos rfl]⟩
      rw [depthOf_closer hcloser]
      omega
    | false =>
      refine ⟨depth, ?_, by rw [if_neg Bool.false_ne_true]⟩
      rw [depthOf_other hopener hcloser, Int.add_zero]

/-- **The scan finds the extent of a value**, whatever number of brackets is open. -/
lemma isExtent_valueLengthFrom (depth : Nat) (cs : List Char) :
    IsExtent depth cs (valueLengthFrom .plain depth cs) := by
  induction cs using reading_induction generalizing depth with
  | nil => exact Or.inr ⟨fun m hm => absurd hm.lt_length (Nat.not_lt_zero m), rfl⟩
  | char c cs hplain ih =>
    by_cases hstop : depth = 0 ∧ StopsValue (c :: cs)
    · obtain ⟨rfl, hstop⟩ := hstop
      rw [valueLengthFrom_of_stops hplain hstop]
      exact Or.inl ⟨isEndFrom_zero_iff.2 ⟨rfl, hstop⟩, fun m _ => Nat.zero_le m⟩
    · obtain ⟨depth', hdepth, hlength⟩ := exists_valueLengthFrom_char hplain hstop
      rw [hlength]
      refine (ih depth').shift (u := [c]) fun m => ?_
      rcases m with _ | m
      · -- the value does not end in front of `c`
        rw [List.singleton_append, isEndFrom_zero_iff]
        refine iff_of_false ?_ (by simp)
        exact_mod_cast hstop
      · rw [List.singleton_append, isEndFrom_char_iff hplain, ← hdepth]
        simp
  | string quote content cs hquote hcontent ih =>
    rw [valueLengthFrom_string hquote hcontent]
    have htext : quote :: (content ++ quote :: cs) = (quote :: (content ++ [quote])) ++ cs := by simp
    have hlength : content.length + 2 = (quote :: (content ++ [quote])).length := by simp
    rw [htext, hlength]
    refine (ih depth).shift fun m => ?_
    rw [← htext, ← hlength]
    exact isEndFrom_string_iff hquote hcontent
  | unclosed quote content rest hquote hcontent hrest =>
    rw [valueLengthFrom_unclosed hquote hcontent hrest]
    exact Or.inr ⟨fun m => not_isEndFrom_unclosed hquote hcontent hrest, rfl⟩

end Extent

/-! ## Offsets -/

/-- A value that starts at an offset could end at another one: the text between them is read outside
strings, as many brackets are closed in it as opened, and what follows stops the value. -/
def IsEnd (cs : List Char) (start i : Nat) : Prop :=
  start ≤ i ∧ ∃ plain, Reads ((cs.take i).drop start) plain ∧ depthOf plain = 0 ∧
    StopsValue (cs.drop i)

/-- Ends of a value inside a text are ends of what starts there. -/
lemma isEnd_add_iff {cs : List Char} {start n : Nat} :
    IsEnd cs start (start + n) ↔ IsEndFrom 0 (cs.drop start) n := by
  unfold IsEnd IsEndFrom
  rw [List.drop_take, Nat.add_sub_cancel_left, List.drop_drop]
  simp only [Nat.le_add_right, true_and, Int.zero_add]

/-- **A value ends at the first comma, closing bracket or key outside its brackets and strings.** Of
the offsets at which it could end it is the least one, and the length of the text if there is none,
as when a string or a bracket stays open. -/
theorem valueEnd_isLeast (cs : List Char) (start : Nat) :
    ((∃ i, IsEnd cs start i) → IsLeast {i | IsEnd cs start i} (valueEnd cs start)) ∧
      ((¬ ∃ i, IsEnd cs start i) → valueEnd cs start = cs.length) := by
  have hends : ∀ i, IsEnd cs start i → ∃ n, i = start + n ∧ IsEndFrom 0 (cs.drop start) n := by
    intro i hi
    obtain ⟨n, rfl⟩ := Nat.exists_eq_add_of_le hi.1
    exact ⟨n, rfl, isEnd_add_iff.1 hi⟩
  unfold valueEnd
  by_cases hstart : cs.length ≤ start
  · -- behind the text there is no end
    rw [if_pos hstart]
    refine ⟨?_, fun _ => rfl⟩
    rintro ⟨i, hi⟩
    obtain ⟨n, -, hn⟩ := hends i hi
    have hlt := hn.lt_length
    rw [List.length_drop] at hlt
    omega
  · rw [if_neg hstart]
    rcases isExtent_valueLengthFrom 0 (cs.drop start) with ⟨hend, hleast⟩ | ⟨hnone, hlength⟩
    · refine ⟨fun _ => ⟨isEnd_add_iff.2 hend, ?_⟩, fun h => absurd ⟨_, isEnd_add_iff.2 hend⟩ h⟩
      intro i hi
      obtain ⟨n, rfl, hn⟩ := hends i hi
      exact Nat.add_le_add_left (hleast hn) start
    · refine ⟨?_, fun _ => ?_⟩
      · rintro ⟨i, hi⟩
        obtain ⟨n, -, hn⟩ := hends i hi
        exact absurd hn (hnone n)
      · rw [valueLength, hlength, List.length_drop]
        omega

example : valueEnd "[A.B]: f('),', [c]) [D.E]: g".toList 6 = 20 := by decide

end RouteAssets.Registration
