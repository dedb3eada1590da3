import RouteAssets.Proofs.Registration.Rendering

/-!
# Strings around registrations

Keys and imports are searched for in the text as it stands. This module says what that search finds,
and which part of it does not depend on what strings hold.

* **What is found** (`entriesUpTo_eq`): an entry for each place where a key starts, since no key
  starts inside of another one.
* **In front of a string** (`keyAt?_append_quote`, `importAt?_append_quote`): a key does not reach
  into a string that stands behind its start, and neither does an import, its argument excepted.
* **Values** (`valueFrom_append_string`): whether a value ends in front of a string does not depend on
  the string, and neither does what the value is like behind it.
* **Own entries** (`ownEntries_replace`): those of the keys outside strings, with imports that are no
  part of a string or of a longer word. Another string in the place of one changes none of them.
-/

namespace RouteAssets.Registration

open RouteAssets.Text

/-! ## What is found -/

/-- The value at the front of a text, with `depth` brackets open. -/
def valueFrom (depth : Nat) (cs : List Char) : List Char := cs.take (valueLengthFrom .plain depth cs)

/-- The entry of a key at the front of a text. -/
def entryAt? (cs : List Char) : Option Entry :=
  (keyAt? cs).map fun (depId, rest) => entryOf depId rest

/-- Does a text end within an identifier? `named` says so of what is in front of it. -/
def endsInName (named : Bool) (cs : List Char) : Bool := cs.foldl (fun _ c => isNamePart c) named

/-- The beginning of an import, up to its argument. -/
def IsCall (cs : List Char) : Prop :=
  ∃ g₁ g₂, AllBlank g₁ ∧ AllBlank g₂ ∧ cs = "import".toList ++ (g₁ ++ '(' :: g₂)

/-- What stands behind a text is the argument of an import. -/
def AwaitsArgument (named : Bool) (front : List Char) : Prop :=
  ∃ before call, IsCall call ∧ front = before ++ call ∧ endsInName named before = false

section Keys

variable {c quote : Char} {cs u v w text rest key : List Char} {depId : DepId} {n : Nat}

/-- Blanks are not a given character, if that is not blank. -/
lemma AllBlank.not_mem (h : AllBlank cs) (hc : isBlank c = false) : c ∉ cs := by
  intro hmem
  rw [h c hmem] at hc
  cases hc

/-- A key holds no quote, and no bracket that opens another one. -/
lemma IsKey.exists_tail (h : IsKey depId key) :
    (∀ c ∈ key, isQuote c = false) ∧ ∃ tail, key = '[' :: tail ∧ '[' ∉ tail := by
  obtain ⟨owner, name, paddedOwner, paddedName, gap, howner, hname, hgap, -, rfl⟩ := h
  have hpadded : ∀ name text, IsPadded name text →
      (∀ c ∈ text, isQuote c = false) ∧ '[' ∉ text := by
    rintro name _ ⟨before, after, hname, hbefore, hafter, rfl⟩
    refine ⟨?_, ?_⟩
    · simp only [List.forall_mem_append]
      exact ⟨fun c hc => (hbefore.forall c hc).1, fun c hc => (hname.forall c hc).1,
        fun c hc => (hafter.forall c hc).1⟩
    · obtain ⟨d, tail, rfl, hd, htail⟩ := hname
      have hfirst : '[' ≠ d := by
        rintro rfl
        exact absurd hd (by decide)
      have hothers : '[' ∉ tail := fun hmem => absurd (htail _ hmem) (by decide)
      simp [hbefore.not_mem, hafter.not_mem, hfirst, hothers, show isBlank '[' = false by decide]
  obtain ⟨hownerQuotes, hownerBracket⟩ := hpadded _ _ howner
  obtain ⟨hnameQuotes, hnameBracket⟩ := hpadded _ _ hname
  refine ⟨?_, _, rfl, ?_⟩
  · simp only [List.forall_mem_cons, List.forall_mem_append]
    exact ⟨by decide, hownerQuotes, by decide, hnameQuotes, by decide,
      fun c hc => (hgap.forall c hc).1, by decide, List.forall_mem_nil _⟩
  · simp [hownerBracket, hnameBracket, hgap.not_mem, show isBlank '[' = false by decide]

/-- Text in which no key starts is passed over. -/
lemma filterMap_tails_append
    (h : ∀ front part, u = front ++ part → part ≠ [] → ¬ StartsWithKey (part ++ v)) :
    (u ++ v).tails.filterMap entryAt? = v.tails.filterMap entryAt? := by
  induction u with
  | nil => rfl
  | cons c u ih =>
    have hkey := h [] (c :: u) rfl (List.cons_ne_nil c u)
    rw [← isSome_keyAt?_iff, Option.not_isSome_iff_eq_none, List.cons_append] at hkey
    rw [List.cons_append, List.tails_cons, List.filterMap_cons_none (by rw [entryAt?, hkey]; rfl)]
    refine ih fun front part hu hpart => h (c :: front) part ?_ hpart
    rw [hu, List.cons_append]

/-- No key starts in text without opening brackets. -/
lemma not_startsWithKey_of_not_mem (h : '[' ∉ u) (hu : u ≠ []) : ¬ StartsWithKey (u ++ v) := by
  intro hkey
  obtain ⟨rest, hrest⟩ := hkey.exists_eq_cons
  rcases u with _ | ⟨c, u⟩
  · exact hu rfl
  · obtain ⟨rfl, -⟩ := List.cons.inj hrest
    exact h List.mem_cons_self

/-- **An entry is found for each place where a key starts.** -/
lemma entriesUpTo_eq (h : cs.length ≤ n) : entriesUpTo n cs = cs.tails.filterMap entryAt? := by
  induction n generalizing cs with
  | zero =>
    rw [List.length_eq_zero_iff.1 (Nat.le_zero.1 h)]
    rfl
  | succ n ih =>
    rcases cs with _ | ⟨c, cs⟩
    · rfl
    · cases hkey : keyAt? (c :: cs) with
      | none =>
        rw [entriesUpTo, hkey, List.tails_cons, List.filterMap_cons_none (by rw [entryAt?, hkey]; rfl)]
        exact ih (Nat.le_of_succ_le_succ h)
      | some found =>
        obtain ⟨depId, rest⟩ := found
        obtain ⟨key, hisKey, hcs⟩ := keyAt?_eq_some_iff.1 hkey
        obtain ⟨-, tail, rfl, htail⟩ := hisKey.exists_tail
        obtain ⟨rfl, htext⟩ : c = '[' ∧ cs = tail ++ rest := List.cons.inj hcs
        subst htext
        -- the search goes on behind the key, in which no other one starts
        have hlength : rest.length ≤ n := by
          rw [List.length_cons, List.length_append] at h
          omega
        rw [entriesUpTo_key hkey, ih hlength, List.tails_cons,
          List.filterMap_cons_some (by rw [entryAt?, hkey]; rfl), filterMap_tails_append]
        rintro front part rfl hpart
        exact not_startsWithKey_of_not_mem (fun hmem => htail (List.mem_append_right _ hmem)) hpart

end Keys

/-! ## In front of a string -/

section InFront

variable {c quote : Char} {cs u w text text' rest rest' plain call : List Char} {depth : Nat}
  {named : Bool}

/-- What is found at the front of a text that goes on with a quote ends in front of the quote, or
holds it. -/
lemma append_quote_cases (h : u ++ quote :: w = text ++ rest) :
    (∃ behind, u = text ++ behind ∧ rest = behind ++ quote :: w) ∨
      ∃ part, text = u ++ quote :: part ∧ w = part ++ rest := by
  rcases List.append_eq_append_iff.1 h with ⟨part, rfl, hw⟩ | ⟨behind, rfl, hrest⟩
  · rcases part with _ | ⟨d, part⟩
    · exact Or.inl ⟨[], by simp, by simpa using hw.symm⟩
    · obtain ⟨rfl, rfl⟩ := List.cons.inj hw
      exact Or.inr ⟨part, rfl, rfl⟩
  · exact Or.inl ⟨behind, rfl, hrest⟩

/-- A key in front of a quote does not reach it. -/
lemma keyAt?_append_quote (hquote : isQuote quote = true) :
    keyAt? (u ++ quote :: w) =
      (keyAt? u).map fun (depId, rest) => (depId, rest ++ quote :: w) := by
  cases hkey : keyAt? u with
  | some found =>
    obtain ⟨depId, rest⟩ := found
    obtain ⟨key, hisKey, rfl⟩ := keyAt?_eq_some_iff.1 hkey
    exact keyAt?_eq_some_iff.2 ⟨key, hisKey, List.append_assoc _ _ _⟩
  | none =>
    rw [Option.map_none, Option.eq_none_iff_forall_ne_some]
    rintro ⟨depId, rest⟩ hfound
    obtain ⟨key, hisKey, hsplit⟩ := keyAt?_eq_some_iff.1 hfound
    rcases append_quote_cases hsplit with ⟨behind, rfl, -⟩ | ⟨part, rfl, -⟩
    · have hsome : keyAt? (key ++ behind) = some (depId, behind) :=
        keyAt?_eq_some_iff.2 ⟨key, hisKey, rfl⟩
      rw [hkey] at hsome
      cases hsome
    · have hplain := hisKey.exists_tail.1 quote (by simp)
      rw [hquote] at hplain
      cases hplain

/-- The beginning of an import holds no quote. -/
lemma IsCall.forall (h : IsCall call) : ∀ c ∈ call, isQuote c = false := by
  obtain ⟨g₁, g₂, hg₁, hg₂, rfl⟩ := h
  simp only [List.forall_mem_append, List.forall_mem_cons]
  exact ⟨by simp [isQuote], fun c hc => (hg₁.forall c hc).1, by decide,
    fun c hc => (hg₂.forall c hc).1⟩

/-- **An import does not reach into a string that it does not await.** -/
lemma importAt?_append_quote (hquote : isQuote quote = true) (hreads : Reads u plain)
    (hcall : ¬ IsCall u) : importAt? (u ++ quote :: w) = importAt? u := by
  ext specifier
  rw [importAt?_eq_some_iff, importAt?_eq_some_iff]
  constructor
  · rintro ⟨text, rest, himport, hsplit⟩
    rcases append_quote_cases hsplit with ⟨behind, rfl, -⟩ | ⟨part, htext, -⟩
    · exact ⟨text, behind, himport, rfl⟩
    · exfalso
      obtain ⟨g₁, g₂, g₃, q, hg₁, hg₂, hg₃, hq, ⟨-, hspecifier⟩, rfl⟩ := himport
      have hisCall : IsCall ("import".toList ++ (g₁ ++ '(' :: g₂)) := ⟨g₁, g₂, hg₁, hg₂, rfl⟩
      replace htext : ("import".toList ++ (g₁ ++ '(' :: g₂)) ++
          q :: (specifier ++ q :: (g₃ ++ [')'])) = u ++ quote :: part := by
        rw [← htext]
        simp
      generalize "import".toList ++ (g₁ ++ '(' :: g₂) = call at hisCall htext
      rcases append_quote_cases htext with ⟨behind, rfl, hbehind⟩ | ⟨front, rfl, hfront⟩
      · -- the quote of the string is the one in front of the specifier
        rcases behind with _ | ⟨d, behind⟩
        · rw [List.append_nil] at hisCall
          exact hcall hisCall
        · obtain ⟨rfl, -⟩ := List.cons.inj hbehind
          have hplain := hisCall.forall quote (by simp)
          rw [hquote] at hplain
          cases hplain
      · -- the specifier is read within `u`, so that its string is closed there
        obtain ⟨plain', hstring, -⟩ := (reads_of_plain hisCall.forall).of_append hreads
        obtain ⟨content, tail, -, rfl, -⟩ := hstring.exists_string hq
        rcases append_quote_cases hfront with ⟨behind, rfl, -⟩ | ⟨part', -, hpart⟩
        · have hplain := hspecifier q (by simp)
          rw [hq] at hplain
          cases hplain
        · have hmem : quote ∈ g₃ ++ [')'] := by
            rw [hpart]
            simp
          rw [List.mem_append, List.mem_singleton] at hmem
          rcases hmem with hmem | rfl
          · rw [isQuote_of_isBlank (hg₃ _ hmem)] at hquote
            cases hquote
          · exact absurd hquote (by decide)
  · rintro ⟨text, rest, himport, rfl⟩
    exact ⟨text, rest ++ quote :: w, himport, List.append_assoc _ _ _⟩

/-- No import starts with a quote. -/
lemma importAt?_quote (hquote : isQuote quote = true) : importAt? (quote :: cs) = none := by
  rw [Option.eq_none_iff_forall_ne_some]
  intro specifier hsome
  obtain ⟨text, rest, ⟨g₁, g₂, g₃, q, -, -, -, -, -, rfl⟩, hsplit⟩ := importAt?_eq_some_iff.1 hsome
  obtain ⟨rfl, -⟩ := List.cons.inj hsplit
  exact absurd hquote (by decide)

/-- Strings belong to the value around them. -/
lemma valueFrom_string (h : IsString text rest) :
    valueFrom depth (text ++ rest) = text ++ valueFrom depth rest := by
  unfold valueFrom
  cases h with
  | @closed quote content rest hquote hcontent =>
    have hlength : valueLengthFrom .plain depth (quote :: (content ++ [quote]) ++ rest) =
        (quote :: (content ++ [quote])).length + valueLengthFrom .plain depth rest := by
      rw [List.cons_append, List.append_assoc, List.singleton_append,
        valueLengthFrom_string hquote hcontent]
      simp only [List.length_cons, List.length_append, List.length_nil]
      omega
    rw [hlength, List.take_length_add_append]
  | @unclosed quote content last hquote hcontent hlast =>
    rw [List.append_nil, valueLengthFrom_unclosed hquote hcontent hlast, List.take_length]
    simp

/-- Where a value goes on, its rest is that of what follows. -/
lemma exists_valueFrom_char (hplain : isQuote c = false)
    (h : ¬ (depth = 0 ∧ StopsValue (c :: cs))) :
    ∃ depth' : Nat, (depth' : Int) = depth + depthOf [c] ∧
      valueFrom depth (c :: cs) = c :: valueFrom depth' cs := by
  obtain ⟨depth', hdepth, hlength⟩ := exists_valueLengthFrom_char hplain h
  exact ⟨depth', hdepth, by rw [valueFrom, hlength, List.take_succ_cons, valueFrom]⟩

/-- A string that stands behind does not stop a value. -/
lemma stopsValue_append_string (h : IsString text rest) :
    StopsValue (c :: (u ++ (text ++ rest))) ↔ StopsValue (c :: u) := by
  obtain ⟨quote, tail, rfl, hquote⟩ := h.exists_quote
  have hkey : StartsWithKey (c :: (u ++ (quote :: tail ++ rest))) ↔ StartsWithKey (c :: u) := by
    rw [← isSome_keyAt?_iff, ← isSome_keyAt?_iff, List.cons_append, ← List.cons_append,
      keyAt?_append_quote hquote, Option.isSome_map]
  have hfront : ∀ cs : List Char, (∃ d rest, c :: cs = d :: rest ∧ (d = ',' ∨ isCloser d = true)) ↔
      (c = ',' ∨ isCloser c = true) := by
    intro cs
    constructor
    · rintro ⟨d, rest, hcons, hd⟩
      rwa [(List.cons.inj hcons).1]
    · exact fun hc => ⟨c, cs, rfl, hc⟩
  unfold StopsValue
  rw [hkey, hfront, hfront]

/-- **A value ends in front of a string whatever it holds, or goes on behind it** with the brackets
that are open then. -/
lemma valueFrom_append_string (hreads : Reads u plain) :
    (∃ value, ∀ text rest, IsString text rest → valueFrom depth (u ++ (text ++ rest)) = value) ∨
      ∃ depth', ∀ text rest, IsString text rest →
        valueFrom depth (u ++ (text ++ rest)) = u ++ (text ++ valueFrom depth' rest) := by
  induction hreads generalizing depth with
  | nil => exact Or.inr ⟨depth, fun text rest h => valueFrom_string h⟩
  | @char c u plain hplain _ ih =>
    by_cases hstop : depth = 0 ∧ StopsValue (c :: u)
    · obtain ⟨rfl, hstop⟩ := hstop
      refine Or.inl ⟨[], fun text rest h => ?_⟩
      rw [valueFrom, List.cons_append,
        valueLengthFrom_of_stops hplain ((stopsValue_append_string h).2 hstop), List.take_zero]
    · -- The depth behind `c` is the same for all strings.
      have hstep : ∀ depth' : Nat, (depth' : Int) = depth + depthOf [c] → ∀ text rest,
          IsString text rest → valueFrom depth (c :: u ++ (text ++ rest)) =
            c :: valueFrom depth' (u ++ (text ++ rest)) := by
        intro depth' hdepth text rest h
        have hgoes : ¬ (depth = 0 ∧ StopsValue (c :: (u ++ (text ++ rest)))) := by
          rwa [stopsValue_append_string h]
        obtain ⟨depth'', hdepth', hvalue⟩ := exists_valueFrom_char hplain hgoes
        obtain rfl : depth'' = depth' := by omega
        exact hvalue
      obtain ⟨depth', hdepth, -⟩ := exists_valueFrom_char hplain hstop
      rcases @ih depth' with ⟨value, hvalue⟩ | ⟨depth'', hvalue⟩
      · refine Or.inl ⟨c :: value, fun text rest h => ?_⟩
        rw [hstep depth' hdepth text rest h, hvalue text rest h]
      · refine Or.inr ⟨depth'', fun text rest h => ?_⟩
        rw [hstep depth' hdepth text rest h, hvalue text rest h, List.cons_append]
  | @string quote content u plain hquote hcontent _ ih =>
    have hstep : ∀ text rest, valueFrom depth (quote :: (content ++ quote :: u) ++ (text ++ rest)) =
        quote :: (content ++ [quote]) ++ valueFrom depth (u ++ (text ++ rest)) := by
      intro text rest
      rw [← valueFrom_string (.closed hquote hcontent)]
      simp
    rcases @ih depth with ⟨value, hvalue⟩ | ⟨depth', hvalue⟩
    · refine Or.inl ⟨quote :: (content ++ [quote]) ++ value, fun text rest h => ?_⟩
      rw [hstep, hvalue text rest h]
    · refine Or.inr ⟨depth', fun text rest h => ?_⟩
      rw [hstep, hvalue text rest h]
      simp

end InFront

/-! ## Own entries -/

/-- The region behind a character of a text without comments. -/
def Region.next : Region → Char → Region
  | .string quote, c => Region.afterStringChar quote c
  | .escape quote, _ => .string quote
  | _, c => if isQuote c then .string c else .plain

/-- What is behind each place outside strings, with whether the character in front of the place is
part of an identifier. -/
def outsideTails : Region → Bool → List Char → List (Bool × List Char)
  | _, _, [] => []
  | .plain, named, c :: cs =>
    (named, c :: cs) :: outsideTails (Region.plain.next c) (isNamePart c) cs
  | region, _, c :: cs => outsideTails (region.next c) (isNamePart c) cs

/-- The specifier of the first import in a text that is no part of a string or of a longer word. -/
def ownImport? (named : Bool) (cs : List Char) : Option (List Char) :=
  (outsideTails .plain named cs).findSome? fun place =>
    if place.1 then none else importAt? place.2

/-- The entry of a key at the front of a text, with an import that is no part of a string or of a
longer word. -/
def ownEntryAt? (cs : List Char) : Option Entry :=
  (keyAt? cs).map fun (depId, rest) =>
    { depId, specifier := (ownImport? false (valueFrom 0 rest)).map String.ofList }

/-- The entries of the keys that are outside strings. -/
def ownEntries (named : Bool) (cs : List Char) : List Entry :=
  (outsideTails .plain named cs).filterMap fun place => ownEntryAt? place.2

section Own

variable {c quote : Char} {cs u content rest rest' text text' plain before : List Char} {named : Bool}

/-- No quote is part of an identifier. -/
lemma isNamePart_of_isQuote (h : isQuote c = true) : isNamePart c = false := by
  cases hpart : isNamePart c with
  | false => rfl
  | true =>
    rw [(of_isName (Or.inr hpart)).1] at h
    cases h

/-- A plain character leaves the text outside strings. -/
lemma Region.next_plain (hplain : isQuote c = false) : Region.plain.next c = .plain := by
  simp [Region.next, hplain]

/-- A quote leads into a string. -/
lemma Region.next_quote (hquote : isQuote quote = true) :
    Region.plain.next quote = .string quote := by
  simp [Region.next, hquote]

/-- The quote of a string leads out of it. -/
lemma Region.next_string (hquote : isQuote quote = true) :
    (Region.string quote).next quote = .plain := by
  have hne : (quote == '\\') = false := by simpa using ne_backslash_of_isQuote hquote
  rw [Region.next, Region.afterStringChar, hne, if_neg Bool.false_ne_true, if_pos (by simp)]

/-- A plain character is passed outside strings. -/
lemma outsideTails_char (hplain : isQuote c = false) :
    outsideTails .plain named (c :: cs) =
      (named, c :: cs) :: outsideTails .plain (isNamePart c) cs := by
  rw [outsideTails, Region.next_plain hplain]

/-- No place in the content of a string is outside of it. -/
lemma outsideTails_content (hquote : isQuote quote = true) (hcontent : IsContent quote content)
    (hrest : EndsContent quote rest) :
    outsideTails (.string quote) named (content ++ rest) = outsideTails .plain false rest.tail := by
  -- Within a string no place is listed.
  have hinside : ∀ c cs named, outsideTails (.string quote) named (c :: cs) =
      outsideTails ((Region.string quote).next c) (isNamePart c) cs := fun _ _ _ => by
    rw [outsideTails]
    simp
  induction hcontent generalizing named with
  | nil =>
    rcases hrest with rfl | rfl | ⟨cs, rfl⟩
    · rfl
    · rfl
    · rw [List.nil_append, hinside, Region.next_string hquote, isNamePart_of_isQuote hquote,
        List.tail_cons]
  | char hescape hne _ ih =>
    rw [List.cons_append, hinside, Region.next, Region.afterStringChar,
      if_neg (by simpa using hescape), if_neg (by simpa using hne), ih]
  | escaped _ ih =>
    rw [List.cons_append, List.cons_append, hinside, Region.next, Region.afterStringChar,
      if_pos (by rfl), outsideTails, Region.next, ih]
    simp

/-- Of a string only its front is outside. -/
lemma outsideTails_string (h : IsString text rest) :
    outsideTails .plain named (text ++ rest) =
      (named, text ++ rest) :: outsideTails .plain false rest := by
  obtain ⟨quote, content, last, hquote, hcontent, hlast, htext, rfl⟩ := h.exists_content
  rw [htext, outsideTails, Region.next_quote hquote, outsideTails_content hquote hcontent hlast]

/-- A plain character is where the own import starts, or it is passed over. -/
lemma ownImport?_char (hplain : isQuote c = false) :
    ownImport? named (c :: cs) =
      ((if named then none else importAt? (c :: cs)) <|> ownImport? (isNamePart c) cs) := by
  rw [ownImport?, outsideTails_char hplain, List.findSome?_cons, ← ownImport?]
  cases if named then none else importAt? (c :: cs) with
  | none => rfl
  | some specifier => rfl

/-- Strings are passed over. -/
lemma ownImport?_string (h : IsString text rest) :
    ownImport? named (text ++ rest) = ownImport? false rest := by
  have hnone : importAt? (text ++ rest) = none := by
    obtain ⟨quote, tail, rfl, hquote⟩ := h.exists_quote
    exact importAt?_quote hquote
  rw [ownImport?, outsideTails_string h, List.findSome?_cons]
  simp only [hnone, ite_self]
  rfl

/-- What a text ends in is passed on from part to part. -/
lemma endsInName_append : endsInName named (before ++ u) = endsInName (endsInName named before) u :=
  List.foldl_append

/-- All of a text awaits an argument if what follows its first part does. -/
lemma AwaitsArgument.append (h : AwaitsArgument (endsInName named before) u) :
    AwaitsArgument named (before ++ u) := by
  obtain ⟨front, call, hcall, rfl, hname⟩ := h
  exact ⟨before ++ front, call, hcall, (List.append_assoc _ _ _).symm, by rwa [endsInName_append]⟩

/-- Behind a string no identifier goes on. -/
lemma endsInName_string (hquote : isQuote quote = true) :
    endsInName named (quote :: (content ++ [quote])) = false := by
  rw [endsInName, List.foldl_cons, List.foldl_append, List.foldl_cons, List.foldl_nil,
    isNamePart_of_isQuote hquote]

/-- All of a text awaits an argument if what follows its first character does. -/
lemma AwaitsArgument.cons (h : AwaitsArgument (isNamePart c) u) : AwaitsArgument named (c :: u) :=
  @AwaitsArgument.append u [c] named h

/-- All of a text awaits an argument if what follows its first string does. -/
lemma AwaitsArgument.string (h : AwaitsArgument false u) (hquote : isQuote quote = true) :
    AwaitsArgument named (quote :: (content ++ quote :: u)) := by
  have hbehind : endsInName named (quote :: (content ++ [quote])) = false := endsInName_string hquote
  rw [← hbehind] at h
  simpa using h.append

/-- **An own import does not depend on a string that it does not await.** -/
lemma ownImport?_replace (hreads : Reads u plain) (hstring : IsString text rest)
    (hstring' : IsString text' rest) (hawaits : ¬ AwaitsArgument named u) :
    ownImport? named (u ++ (text ++ rest)) = ownImport? named (u ++ (text' ++ rest)) := by
  induction hreads generalizing named with
  | nil =>
    rw [List.nil_append, List.nil_append, ownImport?_string hstring, ownImport?_string hstring']
  | @char c u plain hplain hrest ih =>
    have hfront : ∀ text, IsString text rest →
        (if named then none else importAt? (c :: (u ++ (text ++ rest)))) =
          if named then none else importAt? (c :: u) := by
      intro text h
      obtain ⟨quote, tail, rfl, hquote⟩ := h.exists_quote
      cases hnamed : named with
      | true => rfl
      | false =>
        rw [if_neg Bool.false_ne_true, if_neg Bool.false_ne_true]
        refine importAt?_append_quote (u := c :: u) hquote (.char hplain hrest) fun hcall => ?_
        exact hawaits ⟨[], c :: u, hcall, rfl, hnamed⟩
    rw [List.cons_append, List.cons_append, ownImport?_char hplain, ownImport?_char hplain,
      hfront text hstring, hfront text' hstring', ih fun h => hawaits h.cons]
  | @string quote content u plain hquote hcontent _ ih =>
    have hpass : ∀ cs, ownImport? named (quote :: (content ++ quote :: u) ++ cs) =
        ownImport? false (u ++ cs) := by
      intro cs
      rw [← @ownImport?_string _ _ named (.closed hquote hcontent)]
      simp
    rw [hpass, hpass]
    exact ih fun h => hawaits (h.string hquote)

/-- A key ends with its colon. -/
lemma endsInName_key {depId : DepId} {key : List Char} (h : IsKey depId key) :
    endsInName named key = false := by
  obtain ⟨owner, name, paddedOwner, paddedName, gap, -, -, -, -, rfl⟩ := h
  simp only [endsInName, List.foldl_cons, List.foldl_append, List.foldl_nil]
  decide

/-- **An own entry does not depend on a string that it does not await.** -/
lemma ownEntryAt?_replace (hreads : Reads u plain) (hstring : IsString text rest)
    (hstring' : IsString text' rest) (hawaits : ¬ AwaitsArgument named u) :
    ownEntryAt? (u ++ (text ++ rest)) = ownEntryAt? (u ++ (text' ++ rest)) := by
  have hsplit : ∀ text, IsString text rest → keyAt? (u ++ (text ++ rest)) =
      (keyAt? u).map fun (depId, behind) => (depId, behind ++ (text ++ rest)) := by
    intro text h
    obtain ⟨quote, tail, rfl, hquote⟩ := h.exists_quote
    exact keyAt?_append_quote hquote
  rw [ownEntryAt?, ownEntryAt?, hsplit text hstring, hsplit text' hstring']
  cases hkey : keyAt? u with
  | none => rfl
  | some found =>
    obtain ⟨depId, behind⟩ := found
    obtain ⟨key, hisKey, rfl⟩ := keyAt?_eq_some_iff.1 hkey
    obtain ⟨plain', hbehind, -⟩ := (reads_of_plain hisKey.exists_tail.1).of_append hreads
    have hawaits' : ¬ AwaitsArgument false behind := by
      intro h
      rw [← @endsInName_key named _ _ hisKey] at h
      exact hawaits h.append
    have himport : ownImport? false (valueFrom 0 (behind ++ (text ++ rest))) =
        ownImport? false (valueFrom 0 (behind ++ (text' ++ rest))) := by
      rcases @valueFrom_append_string _ _ 0 hbehind with ⟨value, hvalue⟩ | ⟨depth, hvalue⟩
      · rw [hvalue text rest hstring, hvalue text' rest hstring']
      · have hnil : rest = [] → valueFrom depth rest = [] := by
          rintro rfl
          rfl
        rw [hvalue text rest hstring, hvalue text' rest hstring']
        exact ownImport?_replace hbehind (hstring.congr hnil) (hstring'.congr hnil) hawaits'
    simp only [Option.map_some, himport]

/-- The own entries behind a plain character, with that of a key which starts with it. -/
lemma ownEntries_char (hplain : isQuote c = false) :
    ownEntries named (c :: cs) =
      (ownEntryAt? (c :: cs)).toList ++ ownEntries (isNamePart c) cs := by
  rw [ownEntries, outsideTails_char hplain, List.filterMap_cons, ← ownEntries]
  cases ownEntryAt? (c :: cs) with
  | none => rfl
  | some entry => rfl

/-- Strings are passed over. -/
lemma ownEntries_string (h : IsString text rest) :
    ownEntries named (text ++ rest) = ownEntries false rest := by
  have hnone : ownEntryAt? (text ++ rest) = none := by
    obtain ⟨quote, tail, rfl, hquote⟩ := h.exists_quote
    rw [ownEntryAt?, List.cons_append, ← List.nil_append (quote :: _), keyAt?_append_quote hquote]
    rfl
  rw [ownEntries, outsideTails_string h, List.filterMap_cons_none (by exact hnone),
    ← ownEntries]

/-- **Own entries do not depend on a string**, unless an import awaits it. -/
lemma ownEntries_replace (hreads : Reads u plain) (hstring : IsString text rest)
    (hstring' : IsString text' rest) (hawaits : ¬ AwaitsArgument named u) :
    ownEntries named (u ++ (text ++ rest)) = ownEntries named (u ++ (text' ++ rest)) := by
  induction hreads generalizing named with
  | nil =>
    rw [List.nil_append, List.nil_append, ownEntries_string hstring, ownEntries_string hstring']
  | @char c u plain hplain hrest ih =>
    have hfront : ownEntryAt? (c :: (u ++ (text ++ rest))) =
        ownEntryAt? (c :: (u ++ (text' ++ rest))) :=
      ownEntryAt?_replace (.char hplain hrest) hstring hstring' hawaits
    rw [List.cons_append, List.cons_append, ownEntries_char hplain, ownEntries_char hplain, hfront,
      ih fun h => hawaits h.cons]
  | @string quote content u plain hquote hcontent _ ih =>
    have hpass : ∀ cs, ownEntries named (quote :: (content ++ quote :: u) ++ cs) =
        ownEntries false (u ++ cs) := by
      intro cs
      rw [← @ownEntries_string _ _ named (.closed hquote hcontent)]
      simp
    rw [hpass, hpass]
    exact ih fun h => hawaits (h.string hquote)

end Own

end RouteAssets.Registration
