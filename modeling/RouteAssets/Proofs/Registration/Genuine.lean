import RouteAssets.Proofs.Registration.Strings

/-!
# Registrations found in strings

A key in a string is reported, and so are an import in a string and one that is the tail of a longer
word. Which texts report none of these is said by `FindsGenuine`, and decided by a search.

* **Genuine entries** (`entries_eq_ownEntries`): a text that finds nothing else has its own entries,
  by induction on the text as it is read. A string is passed over by both searches, since what starts
  in it would not be genuine (`importFront?_string`).
* **Another string** (`Splits.replace`): a text with another string in the place of one is read as
  before around it.
* **Strings matter only through what is found in them** (`entries_replaceString`).

Nothing is said about the value of a key that is found in a string: it is scanned from the middle of
that string, so that the quote behind it counts as an opening one.
-/

namespace RouteAssets.Registration

/-! ## Genuine entries -/

/-- The text in front of the first import. -/
def importFront? : List Char → Option (List Char)
  | [] => none
  | c :: cs => if (importAt? (c :: cs)).isSome then some [] else (importFront? cs).map (c :: ·)

/-- What stands behind a text stands outside of its strings. -/
def IsOutside (front : List Char) : Prop := ∃ plain, Reads front plain

/-- What stands behind a text is no part of a string, and no tail of a longer word. -/
def StandsAlone (named : Bool) (front : List Char) : Prop :=
  IsOutside front ∧ endsInName named front = false

/-- **A text reports genuine registrations only**: its keys stand outside strings, and so does the
first import in the value of each, which is no tail of a longer word either. -/
def FindsGenuine (cs : List Char) : Prop :=
  ∀ front key rest depId, cs = front ++ (key ++ rest) → IsKey depId key →
    IsOutside front ∧
      ∀ before, importFront? (valueFrom 0 rest) = some before → StandsAlone false before

section Genuine

variable {c quote : Char} {cs u v front part rest text plain : List Char} {named : Bool}

/-- Where the front of a text holds no import, the first one stands behind it. -/
lemma importFront?_cons_of_none (h : importAt? (c :: cs) = none) :
    importFront? (c :: cs) = (importFront? cs).map (c :: ·) := by
  rw [importFront?, h, Option.isSome_none, if_neg Bool.false_ne_true]

/-- An import at the front of a text is its first one. -/
lemma importFront?_cons_of_some {specifier : List Char} (h : importAt? (c :: cs) = some specifier) :
    importFront? (c :: cs) = some [] := by
  rw [importFront?, h, Option.isSome_some, if_pos rfl]

/-- The first import starts in a text, or it is that of what follows. -/
lemma importFront?_append (u v : List Char) :
    (∃ front part, u = front ++ part ∧ part ≠ [] ∧ importFront? (u ++ v) = some front ∧
      importAt? (part ++ v) ≠ none) ∨
      importFront? (u ++ v) = (importFront? v).map (u ++ ·) ∧
        firstImport? (u ++ v) = firstImport? v := by
  induction u with
  | nil => exact Or.inr ⟨by simp, rfl⟩
  | cons c u ih =>
    cases hfront : importAt? (c :: (u ++ v)) with
    | some specifier =>
      refine Or.inl ⟨[], c :: u, rfl, List.cons_ne_nil c u, importFront?_cons_of_some hfront, ?_⟩
      rw [List.cons_append, hfront]
      exact Option.some_ne_none specifier
    | none =>
      rw [List.cons_append, importFront?_cons_of_none hfront, firstImport?_cons_of_none hfront]
      rcases ih with ⟨front, part, rfl, hpart, hfirst, hat⟩ | ⟨hfirst, himport⟩
      · exact Or.inl ⟨c :: front, part, rfl, hpart, by rw [hfirst]; rfl, hat⟩
      · refine Or.inr ⟨?_, himport⟩
        rw [hfirst, Option.map_map]
        rfl

/-- A string with text behind it is closed. -/
lemma IsString.exists_closed (h : IsString text rest) (hrest : rest ≠ []) :
    ∃ quote content, isQuote quote = true ∧ IsContent quote content ∧
      text = quote :: (content ++ [quote]) := by
  cases h with
  | closed hquote hcontent => exact ⟨_, _, hquote, hcontent, rfl⟩
  | unclosed _ _ _ => exact absurd rfl hrest

/-- **Induction on a text as it is read**, whether its last string is closed or not. -/
@[elab_as_elim]
lemma string_induction {motive : List Char → Prop} (nil : motive [])
    (char : ∀ c cs, isQuote c = false → motive cs → motive (c :: cs))
    (string : ∀ text rest, IsString text rest → motive rest → motive (text ++ rest))
    (cs : List Char) : motive cs := by
  induction cs using reading_induction with
  | nil => exact nil
  | char c cs hplain ih => exact char c cs hplain ih
  | string quote content cs hquote hcontent ih =>
    simpa using string _ cs (.closed hquote hcontent) ih
  | unclosed quote content rest hquote hcontent hrest =>
    simpa using string _ [] (.unclosed hquote hcontent hrest) nil

/-- Within a string nothing is outside. -/
lemma IsString.not_isOutside (h : IsString (front ++ part) rest) (hfront : front ≠ [])
    (hpart : part ≠ []) : ¬ IsOutside front := by
  rintro ⟨plain, hreads⟩
  obtain ⟨quote, content, last, hquote, hcontent, hlast, htext, rfl⟩ := h.exists_content
  rcases front with _ | ⟨c, front⟩
  · exact hfront rfl
  · obtain ⟨rfl, htail⟩ := List.cons.inj htext
    obtain ⟨content', behind, hcontent', rfl, -⟩ := hreads.exists_string hquote
    -- the string would end within `front`, and `part` would be behind it
    have hends : content ++ last = content' ++ c :: (behind ++ (part ++ last.tail)) := by
      rw [← htail]
      simp
    obtain ⟨-, hlast'⟩ := content_unique hquote hcontent hcontent' hlast
      (endsContent_quote c _) hends
    have hlength := congrArg List.length (congrArg List.tail hlast')
    simp only [List.tail_cons, List.length_append] at hlength
    exact hpart (List.length_eq_zero_iff.1 (by omega))

/-- What is outside behind a text that is read is outside of what follows. -/
lemma IsOutside.of_append (h : IsOutside (u ++ v)) (hreads : Reads u plain) : IsOutside v := by
  obtain ⟨plain', hall⟩ := h
  obtain ⟨rest, hrest, -⟩ := hreads.of_append hall
  exact ⟨rest, hrest⟩

/-- An import that is outside strings does not start in one. -/
lemma importFront?_string (h : IsString text rest)
    (hfirst : ∀ before, importFront? (text ++ rest) = some before → IsOutside before) :
    importFront? (text ++ rest) = (importFront? rest).map (text ++ ·) ∧
      firstImport? (text ++ rest) = firstImport? rest := by
  rcases importFront?_append text rest with ⟨front, part, htext, hpart, hfront, hat⟩ | hbehind
  · exfalso
    rcases front with _ | ⟨c, front⟩
    · obtain ⟨quote, tail, rfl, hquote⟩ := h.exists_quote
      rw [List.nil_append] at htext
      rw [← htext] at hat
      exact hat (importAt?_quote hquote)
    · rw [htext] at h
      exact h.not_isOutside (List.cons_ne_nil c front) hpart (hfirst _ hfront)
  · exact hbehind

/-- **The first import of a text is its own one if it stands alone.** -/
lemma firstImport?_eq_ownImport?
    (h : ∀ before, importFront? cs = some before → StandsAlone named before) :
    firstImport? cs = ownImport? named cs := by
  induction cs using string_induction generalizing named with
  | nil => rfl
  | char c cs hplain ih =>
    rw [ownImport?_char hplain]
    cases hfront : importAt? (c :: cs) with
    | some specifier =>
      obtain ⟨-, hnamed⟩ := h [] (importFront?_cons_of_some hfront)
      obtain rfl : named = false := hnamed
      rw [firstImport?_cons_of_some hfront, if_neg Bool.false_ne_true]
      rfl
    | none =>
      have hrest : firstImport? cs = ownImport? (isNamePart c) cs := by
        apply ih
        intro before hbefore
        obtain ⟨houtside, hname⟩ := h (c :: before) (by
          rw [importFront?_cons_of_none hfront, hbefore]
          rfl)
        exact ⟨IsOutside.of_append houtside (.char hplain .nil), hname⟩
      rw [firstImport?_cons_of_none hfront, hrest, ite_self]
      rfl
  | string text rest hstring ih =>
    obtain ⟨hfront, hfirst⟩ := importFront?_string hstring fun before hb => (h before hb).1
    rw [hfirst, ownImport?_string hstring]
    rcases eq_or_ne rest [] with rfl | hrest
    · rfl
    · obtain ⟨quote, content, hquote, hcontent, rfl⟩ := hstring.exists_closed hrest
      refine ih fun before hbefore => ?_
      obtain ⟨houtside, hname⟩ := h _ (by rw [hfront, hbefore]; rfl)
      refine ⟨houtside.of_append (.string hquote hcontent .nil), ?_⟩
      rwa [endsInName_append, endsInName_string hquote] at hname

/-- An entry is an own one if its import stands alone. -/
lemma entryAt?_eq_ownEntryAt? (h : FindsGenuine cs) : entryAt? cs = ownEntryAt? cs := by
  rw [entryAt?, ownEntryAt?]
  cases hkey : keyAt? cs with
  | none => rfl
  | some found =>
    obtain ⟨depId, rest⟩ := found
    obtain ⟨key, hisKey, rfl⟩ := keyAt?_eq_some_iff.1 hkey
    have himport := firstImport?_eq_ownImport? (h [] key rest depId rfl hisKey).2
    simp only [Option.map_some, entryOf, ← himport]
    rfl

/-- What follows a text that is read finds what is genuine if all of the text does. -/
lemma FindsGenuine.of_append (h : FindsGenuine (u ++ v)) (hreads : Reads u plain) :
    FindsGenuine v := by
  rintro front key rest depId rfl hkey
  obtain ⟨houtside, himport⟩ := h (u ++ front) key rest depId (List.append_assoc _ _ _).symm hkey
  exact ⟨houtside.of_append hreads, himport⟩

/-- No key of a text that finds what is genuine starts in a string. -/
lemma FindsGenuine.tails_string (h : FindsGenuine (text ++ rest)) (hstring : IsString text rest) :
    (text ++ rest).tails.filterMap entryAt? = rest.tails.filterMap entryAt? := by
  apply filterMap_tails_append
  rintro front part rfl hpart hkey
  rcases front with _ | ⟨c, front⟩
  · obtain ⟨quote, tail, htail, hquote⟩ := hstring.exists_quote
    obtain ⟨rest', hrest⟩ := hkey.exists_eq_cons
    rw [List.nil_append] at htail
    rw [htail] at hrest
    obtain ⟨rfl, -⟩ := List.cons.inj hrest
    exact absurd hquote (by decide)
  · obtain ⟨depId, key, behind, hisKey, hsplit⟩ := hkey
    refine hstring.not_isOutside (List.cons_ne_nil c front) hpart
      (h (c :: front) key behind depId ?_ hisKey).1
    rw [List.append_assoc, hsplit]

/-- **A text that finds what is genuine has its own entries.** -/
lemma entries_eq_ownEntries (h : FindsGenuine cs) :
    cs.tails.filterMap entryAt? = ownEntries named cs := by
  induction cs using string_induction generalizing named with
  | nil => rfl
  | char c cs hplain ih =>
    have hrest : FindsGenuine cs := FindsGenuine.of_append h (.char hplain .nil)
    rw [ownEntries_char hplain, ← entryAt?_eq_ownEntryAt? h, ← ih hrest, List.tails_cons,
      List.filterMap_cons]
    cases entryAt? (c :: cs) with
    | none => rfl
    | some entry => rfl
  | string text rest hstring ih =>
    rw [h.tails_string hstring, ownEntries_string hstring]
    rcases eq_or_ne rest [] with rfl | hrest
    · rfl
    · obtain ⟨quote, content, hquote, hcontent, rfl⟩ := hstring.exists_closed hrest
      exact ih (h.of_append (.string hquote hcontent .nil))

end Genuine

/-! ## Checks -/

section Checks

variable {quote : Char} {cs content rest : List Char} {named : Bool}

/-- The content of a string is inside of it. -/
lemma foldl_next_content (hcontent : IsContent quote content) :
    (content ++ rest).foldl Region.next (.string quote) =
      rest.foldl Region.next (.string quote) := by
  induction hcontent with
  | nil => rfl
  | char hescape hne _ ih =>
    rw [List.cons_append, List.foldl_cons, Region.next, Region.afterStringChar,
      if_neg (by simpa using hescape), if_neg (by simpa using hne), ih]
  | escaped _ ih =>
    rw [List.cons_append, List.cons_append, List.foldl_cons, List.foldl_cons, Region.next,
      Region.afterStringChar, if_pos (by rfl), Region.next, ih]

/-- Reading a text region by region tells whether what stands behind it is outside strings. -/
lemma isOutside_iff : IsOutside cs ↔ cs.foldl Region.next .plain = .plain := by
  induction cs using reading_induction with
  | nil => exact iff_of_true ⟨[], .nil⟩ rfl
  | char c cs hplain ih =>
    rw [List.foldl_cons, Region.next_plain hplain, ← ih]
    exact ⟨fun h => IsOutside.of_append h (.char hplain .nil), fun ⟨_, h⟩ => ⟨_, .char hplain h⟩⟩
  | string quote content cs hquote hcontent ih =>
    rw [List.foldl_cons, Region.next_quote hquote, foldl_next_content hcontent, List.foldl_cons,
      Region.next_string hquote, ← ih]
    constructor
    · intro h
      have htext : quote :: (content ++ quote :: cs) = quote :: (content ++ [quote]) ++ cs := by simp
      rw [htext] at h
      exact h.of_append (.string hquote hcontent .nil)
    · exact fun ⟨_, h⟩ => ⟨_, .string hquote hcontent h⟩
  | unclosed quote content rest hquote hcontent hrest =>
    rw [List.foldl_cons, Region.next_quote hquote, foldl_next_content hcontent]
    refine iff_of_false ?_ ?_
    · rintro ⟨plain, hreads⟩
      obtain ⟨content', behind, hcontent', hsplit, -⟩ := hreads.exists_string hquote
      have hlast : EndsContent quote rest := hrest.elim Or.inl fun h => Or.inr (Or.inl h)
      obtain ⟨-, rfl⟩ := content_unique hquote hcontent hcontent' hlast (endsContent_quote quote _) hsplit
      rcases hrest with hrest | hrest
      · cases hrest
      · exact ne_backslash_of_isQuote hquote (List.cons.inj hrest).1
    · rcases hrest with rfl | rfl
      · simp
      · simp [Region.next, Region.afterStringChar]

instance (cs : List Char) : Decidable (IsOutside cs) := decidable_of_iff _ isOutside_iff.symm

instance (named : Bool) (front : List Char) : Decidable (StandsAlone named front) :=
  inferInstanceAs (Decidable (_ ∧ _))

/-- What a text finds is checked place by place. -/
lemma findsGenuine_iff :
    FindsGenuine cs ↔ ∀ i ∈ List.range cs.length, ∀ found ∈ keyAt? (cs.drop i),
      IsOutside (cs.take i) ∧
        ∀ before ∈ importFront? (valueFrom 0 found.2), StandsAlone false before := by
  constructor
  · rintro h i - ⟨depId, rest⟩ hfound
    obtain ⟨key, hkey, hdrop⟩ := keyAt?_eq_some_iff.1 (Option.mem_def.1 hfound)
    refine h (cs.take i) key rest depId ?_ hkey
    rw [← hdrop, List.take_append_drop]
  · rintro h front key rest depId rfl hkey
    have hlength : front.length < (front ++ (key ++ rest)).length := by
      obtain ⟨-, tail, rfl, -⟩ := hkey.exists_tail
      simp only [List.length_append, List.length_cons]
      omega
    have hplace := h front.length (List.mem_range.2 hlength) (depId, rest) (by
      rw [List.drop_left, Option.mem_def]
      exact keyAt?_eq_some_iff.2 ⟨key, hkey, rfl⟩)
    rwa [List.take_left] at hplace

instance (cs : List Char) : Decidable (FindsGenuine cs) := decidable_of_iff _ findsGenuine_iff.symm

end Checks

/-! ## Another string -/

section Replacing

variable {c : Char} {cs x z text text' : List Char} {before after : List Piece}

/-- Before a string a text starts with a character that is no quote only if it does so by itself. -/
lemma head?_append_string (h : IsString text z) (hc : isQuote c = false) :
    (x ++ (text ++ z)).head? = some c ↔ x.head? = some c := by
  obtain ⟨quote, tail, rfl, hquote⟩ := h.exists_quote
  cases x with
  | nil =>
    rw [List.nil_append, List.cons_append, List.head?_cons, Option.some.injEq]
    refine iff_of_false ?_ (by simp)
    rintro rfl
    rw [hc] at hquote
    cases hquote
  | cons d x => rfl

/-- What a text starts with, other than quotes, does not depend on a string further on. -/
lemma head?_replace (h : IsString text z) (h' : IsString text' z) (hc : isQuote c = false) :
    (x ++ (text' ++ z)).head? = some c ↔ (x ++ (text ++ z)).head? = some c := by
  rw [head?_append_string h hc, head?_append_string h' hc]

/-- A string is not empty. -/
lemma IsString.append_ne_nil (h : IsString text z) : x ++ (text ++ z) ≠ [] := by
  obtain ⟨quote, tail, rfl, -⟩ := h.exists_quote
  simp

/-- A comment stays one with another string behind it. -/
lemma IsComment.replace {comment : List Char} (h : IsComment comment (x ++ (text ++ z)))
    (hstring : IsString text z) (hstring' : IsString text' z) :
    IsComment comment (x ++ (text' ++ z)) := by
  generalize hrest : x ++ (text ++ z) = rest at h
  cases h with
  | line hbody hend =>
    refine .line hbody (Or.inr ?_)
    rcases hend with rfl | ⟨cs, rfl⟩
    · exact absurd hrest hstring.append_ne_nil
    · rw [← List.head?_eq_some_iff, head?_replace hstring hstring' (by decide), hrest]
      rfl
  | block hbody => exact .block hbody
  | openBlock _ => exact absurd hrest hstring.append_ne_nil

/-- A piece that is a string is one in front of what is behind it. -/
lemma Splits.isString (h : Splits cs (before ++ .string text :: after)) :
    IsString text (after.flatMap Piece.text) := by
  induction before generalizing cs with
  | nil =>
    cases h with
    | string hstring hrest => rwa [hrest.flatMap_text]
  | cons piece before ih =>
    cases h with
    | char _ _ hrest => exact ih hrest
    | string _ hrest => exact ih hrest
    | comment _ hrest => exact ih hrest

/-- A text with a string among its pieces. -/
lemma Splits.eq_append_string (h : Splits cs (before ++ .string text :: after)) :
    cs = before.flatMap Piece.text ++ (text ++ after.flatMap Piece.text) := by
  rw [← h.flatMap_text, List.flatMap_append, List.flatMap_cons]
  rfl

/-- **Another string in the place of one leaves the other pieces as they are.** -/
lemma Splits.replace (h : Splits cs (before ++ .string text :: after))
    (hstring' : IsString text' (after.flatMap Piece.text)) :
    Splits (before.flatMap Piece.text ++ (text' ++ after.flatMap Piece.text))
      (before ++ .string text' :: after) := by
  have hstring := h.isString
  induction before generalizing cs with
  | nil =>
    cases h with
    | string _ hrest =>
      rw [← hrest.flatMap_text] at hrest
      exact .string hstring' hrest
  | cons piece before ih =>
    rw [List.flatMap_cons, List.append_assoc]
    cases h with
    | @char c cs _ hquote hcomment hrest =>
      have hcs := hrest.eq_append_string
      refine .char hquote (fun hopens => hcomment ?_) (ih hrest)
      rw [opensComment_cons_iff] at hopens ⊢
      rwa [hcs, ← head?_replace hstring hstring' (by decide),
        ← head?_replace hstring hstring' (by decide)]
    | string hpiece hrest =>
      rw [hrest.eq_append_string] at hpiece
      exact .string (hpiece.congr fun hnil => absurd hnil hstring.append_ne_nil) (ih hrest)
    | comment hpiece hrest =>
      rw [hrest.eq_append_string] at hpiece
      exact .comment (hpiece.replace hstring hstring') (ih hrest)

/-- **In front of a string a text is read outside strings**, its comments being overwritten. -/
lemma Splits.reads_blanked (h : Splits cs (before ++ .string text :: after)) :
    ∃ plain, Reads (before.flatMap Piece.blanked) plain := by
  have hstring := h.isString
  induction before generalizing cs with
  | nil => exact ⟨[], .nil⟩
  | cons piece before ih =>
    rw [List.flatMap_cons]
    cases h with
    | char hquote _ hrest =>
      obtain ⟨plain, hplain⟩ := ih hrest
      exact ⟨_, .char hquote hplain⟩
    | string hpiece hrest =>
      obtain ⟨plain, hplain⟩ := ih hrest
      rw [hrest.eq_append_string] at hpiece
      obtain ⟨quote, content, hquote, hcontent, rfl⟩ := hpiece.exists_closed hstring.append_ne_nil
      exact ⟨_, Reads.append (.string hquote hcontent .nil) hplain⟩
    | @comment comment _ _ _ hrest =>
      obtain ⟨plain, hplain⟩ := ih hrest
      have hblanks : ∀ c ∈ comment.map blanked, isQuote c = false := by
        simp only [List.mem_map]
        rintro _ ⟨c, -, rfl⟩
        rcases blanked_eq c with hc | hc <;> rw [hc] <;> rfl
      exact ⟨_, (reads_of_plain hblanks).append hplain⟩

/-- Overwriting comments leaves a string in front of what is behind it. -/
lemma IsString.blanked (h : IsString text (after.flatMap Piece.text)) :
    IsString text (after.flatMap Piece.blanked) := by
  refine h.congr fun hnil => List.length_eq_zero_iff.1 ?_
  rw [length_flatMap_blanked, hnil, List.length_nil]

/-- A text with a string among its pieces, its comments being overwritten. -/
lemma Splits.blankComments_eq (h : Splits cs (before ++ .string text :: after)) :
    blankComments cs =
      before.flatMap Piece.blanked ++ (text ++ after.flatMap Piece.blanked) := by
  rw [blankComments_of_splits h, List.flatMap_append, List.flatMap_cons]
  rfl

end Replacing

/-- **Strings matter only through what is found in them.** A text splits into its pieces in one way,
and there is an entry for each place of the overwritten text where a key starts, strings included.
If a text and the one with another string in the place of one report genuine registrations only, they
have the same entries, provided that no import awaits the string. -/
theorem entries_replaceString (code : String) :
    ∃ ps, Splits code.toList ps ∧ (∀ ps', Splits code.toList ps' → ps' = ps) ∧
      entries code = (ps.flatMap Piece.blanked).tails.filterMap entryAt? ∧
      ∀ before text after text' code', ps = before ++ .string text :: after →
        IsString text' (after.flatMap Piece.text) →
        ¬ AwaitsArgument false (before.flatMap Piece.blanked) →
        code'.toList = before.flatMap Piece.text ++ (text' ++ after.flatMap Piece.text) →
        FindsGenuine (blankComments code.toList) → FindsGenuine (blankComments code'.toList) →
          entries code' = entries code := by
  obtain ⟨ps, hps⟩ := exists_splits code.toList
  have hentries : ∀ code : String,
      entries code = (blankComments code.toList).tails.filterMap entryAt? :=
    fun code => entriesUpTo_eq le_rfl
  refine ⟨ps, hps, fun ps' hps' => hps.unique hps', ?_, ?_⟩
  · rw [hentries, blankComments_of_splits hps]
  · rintro before text after text' code' rfl hstring' hawaits hcode' hgenuine hgenuine'
    have hps' : Splits code'.toList (before ++ .string text' :: after) := by
      rw [hcode']
      exact hps.replace hstring'
    obtain ⟨plain, hreads⟩ := hps.reads_blanked
    calc entries code' = ownEntries false (blankComments code'.toList) := by
          rw [hentries, entries_eq_ownEntries hgenuine']
      _ = ownEntries false (blankComments code.toList) := by
          rw [hps'.blankComments_eq, hps.blankComments_eq]
          exact ownEntries_replace hreads hstring'.blanked hps.isString.blanked hawaits
      _ = entries code := by rw [hentries, entries_eq_ownEntries hgenuine]

example : entries "[A.B]: 'see [C.D]: import(`x`)'" =
    [{ depId := "A.B", specifier := some "x" }, { depId := "C.D", specifier := some "x" }] := by
  decide

example : FindsGenuine "[A.B]: f(', [C.D]', import('./x, y'))".toList := by decide

-- A key in a string, an import in a string, and an import that is the tail of a longer word.
example : ¬ FindsGenuine "[A.B]: 'see [C.D]: x'".toList ∧
    ¬ FindsGenuine "[A.B]: 'import(' ./x ')'".toList ∧
      ¬ FindsGenuine "[A.B]: reimport('./x')".toList := by decide

end RouteAssets.Registration
