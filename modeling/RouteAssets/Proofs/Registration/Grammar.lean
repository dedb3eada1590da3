import RouteAssets.Proofs.Text.Run
import RouteAssets.Registration.Entry
import Mathlib.Data.List.Infix

/-!
# Keys and imports as they are written

A key is `[Namespace.Name]:` and an import is `import('specifier')`, each with blanks between its
parts. Both readers find exactly what is written so at the front of a text.

* **Keys** (`keyAt?_eq_some_iff`): the identifiers of a key hold no blanks, brackets or dots, so that
  its parts cannot be cut in two ways.
* **Imports** (`importAt?_eq_some_iff`): the specifier holds no quotes, so that it ends at the next one.
* **First import** (`isFirstImport_firstImport?`): of all imports in a text, the one that begins
  first.
-/

namespace RouteAssets.Registration

open RouteAssets.Text

/-- Nothing but blanks. -/
def AllBlank (cs : List Char) : Prop := ∀ c ∈ cs, isBlank c = true

/-- Blanks are neither part of an identifier nor a quote, a bracket, a comma or a slash. -/
lemma classes_of_isBlank {c : Char} (h : isBlank c = true) :
    isNamePart c = false ∧ isNameStart c = false ∧ isQuote c = false ∧ isOpener c = false ∧
      isCloser c = false ∧ c ≠ ',' ∧ c ≠ '/' ∧ c ≠ '*' := by
  have hall : ∀ n ∈ blankCodes,
      (!isNamePart (Char.ofNat n) && !isNameStart (Char.ofNat n) && !isQuote (Char.ofNat n) &&
        !isOpener (Char.ofNat n) && !isCloser (Char.ofNat n) &&
        Char.ofNat n != ',' && Char.ofNat n != '/' && Char.ofNat n != '*') = true := by
    decide +kernel
  have hc := hall c.toNat (toNat_mem_blankCodes h)
  rw [Char.ofNat_toNat] at hc
  simpa [and_assoc] using hc

/-- No blank is part of an identifier. -/
lemma isNamePart_of_isBlank {c : Char} (h : isBlank c = true) : isNamePart c = false :=
  (classes_of_isBlank h).1

/-- No blank is a quote. -/
lemma isQuote_of_isBlank {c : Char} (h : isBlank c = true) : isQuote c = false :=
  (classes_of_isBlank h).2.2.1

/-- A character that starts an identifier is not blank. -/
lemma isBlank_of_isNameStart {c : Char} (h : isNameStart c = true) : isBlank c = false := by
  by_contra hblank
  have hnot := (classes_of_isBlank (by simpa using hblank)).2.1
  rw [h] at hnot
  cases hnot

/-- A character is at the front of a text exactly if the text goes on behind it. -/
lemma afterChar_eq_some_iff {c : Char} {cs rest : List Char} :
    afterChar c cs = some rest ↔ cs = c :: rest := by
  cases cs with
  | nil => simp [afterChar]
  | cons d cs =>
    by_cases hd : d = c
    · simp [afterChar, hd]
    · simp [afterChar, hd]

/-! ## Keys -/

/-- An identifier of a key. -/
def IsName (name : List Char) : Prop :=
  ∃ c cs, name = c :: cs ∧ isNameStart c = true ∧ ∀ d ∈ cs, isNamePart d = true

/-- An identifier with blanks around it. -/
def IsPadded (name text : List Char) : Prop :=
  ∃ before after, IsName name ∧ AllBlank before ∧ AllBlank after ∧ text = before ++ (name ++ after)

/-- A key of a dependency: its two identifiers in brackets with a dot between them, and a colon. -/
def IsKey (depId : DepId) (text : List Char) : Prop :=
  ∃ owner name paddedOwner paddedName gap, IsPadded owner paddedOwner ∧ IsPadded name paddedName ∧
    AllBlank gap ∧ depId = String.ofList (owner ++ '.' :: name) ∧
      text = '[' :: (paddedOwner ++ '.' :: (paddedName ++ ']' :: (gap ++ [':'])))

/-- A text starts with a key. -/
def StartsWithKey (cs : List Char) : Prop := ∃ depId key rest, IsKey depId key ∧ cs = key ++ rest

section Keys

variable {name padded rest cs key : List Char} {depId : DepId}

/-- A padded identifier that is found stands at the front of the text. -/
lemma exists_of_paddedName? (h : paddedName? cs = some (name, rest)) :
    ∃ padded, IsPadded name padded ∧ cs = padded ++ rest := by
  obtain ⟨before, hbefore, hcs⟩ := exists_eq_run_append isBlank cs
  unfold paddedName? at h
  split at h
  · rename_i c tail htail
    split at h
    · rename_i hstart
      cases h
      obtain ⟨after, hafter, hrest⟩ :=
        exists_eq_run_append isBlank (tail.dropWhile isNamePart)
      refine ⟨before ++ (c :: tail.takeWhile isNamePart ++ after), ⟨before, after,
        ⟨c, _, rfl, hstart, fun _ => List.mem_takeWhile_imp⟩, hbefore, hafter, rfl⟩, ?_⟩
      calc cs = before ++ c :: (tail.takeWhile isNamePart ++ tail.dropWhile isNamePart) := by
            rw [List.takeWhile_append_dropWhile, ← htail]
            exact hcs
        _ = before ++ c :: (tail.takeWhile isNamePart ++
              (after ++ (tail.dropWhile isNamePart).dropWhile isBlank)) := by rw [← hrest]
        _ = _ := by simp
    · cases h
  · cases h

/-- A padded identifier is found in front of a character that is neither blank nor part of it. -/
lemma paddedName?_append {c : Char} (h : IsPadded name padded) (hblank : isBlank c = false)
    (hpart : isNamePart c = false) : paddedName? (padded ++ c :: rest) = some (name, c :: rest) := by
  obtain ⟨before, after, ⟨d, tail, rfl, hstart, htail⟩, hbefore, hafter, rfl⟩ := h
  have hname : (before ++ (d :: tail ++ after) ++ c :: rest).dropWhile isBlank =
      d :: (tail ++ (after ++ c :: rest)) := by
    rw [List.append_assoc, List.cons_append, List.cons_append, List.append_assoc,
      dropWhile_run hbefore (isBlank_of_isNameStart hstart)]
  -- Behind the identifier there is a blank or `c`, and neither goes on with it.
  have hstop : ∃ e u, after ++ c :: rest = e :: u ∧ isNamePart e = false := by
    rcases after with _ | ⟨e, after⟩
    · exact ⟨c, rest, rfl, hpart⟩
    · exact ⟨e, _, rfl, isNamePart_of_isBlank (hafter e List.mem_cons_self)⟩
  obtain ⟨e, u, hu, he⟩ := hstop
  unfold paddedName?
  simp only [hname, hstart, if_true]
  rw [hu, takeWhile_run htail he, dropWhile_run htail he, ← hu, dropWhile_run hafter hblank]

/-- **Keys** are found exactly where they are written. -/
lemma keyAt?_eq_some_iff :
    keyAt? cs = some (depId, rest) ↔ ∃ key, IsKey depId key ∧ cs = key ++ rest := by
  constructor
  · intro h
    simp only [keyAt?, Option.bind_eq_bind, Option.bind_eq_some_iff, Option.pure_def,
      Option.some.injEq, Prod.mk.injEq, Prod.exists, afterChar_eq_some_iff] at h
    obtain ⟨r₁, rfl, owner, r₂, howner, r₃, rfl, name, r₄, hname, r₅, rfl, r₆, hcolon, rfl, rfl⟩ := h
    obtain ⟨paddedOwner, howner', rfl⟩ := exists_of_paddedName? howner
    obtain ⟨paddedName, hname', rfl⟩ := exists_of_paddedName? hname
    obtain ⟨gap, hgap, hr₅⟩ := exists_eq_run_append isBlank r₅
    refine ⟨_, ⟨owner, name, paddedOwner, paddedName, gap, howner', hname', hgap, rfl, rfl⟩, ?_⟩
    rw [hr₅, hcolon]
    simp
  · rintro ⟨_, ⟨owner, name, paddedOwner, paddedName, gap, howner, hname, hgap, rfl, rfl⟩, rfl⟩
    have hcolon : (gap ++ ':' :: rest).dropWhile isBlank = ':' :: rest :=
      dropWhile_run hgap (by decide)
    simp only [keyAt?, Option.bind_eq_bind, Option.bind_eq_some_iff, Option.pure_def,
      Option.some.injEq, Prod.mk.injEq, Prod.exists, afterChar_eq_some_iff]
    exact ⟨paddedOwner ++ '.' :: (paddedName ++ ']' :: (gap ++ ':' :: rest)), by simp, owner, _,
      paddedName?_append howner (by decide) (by decide), _, rfl, name, _,
      paddedName?_append hname (by decide) (by decide), _, rfl, rest, hcolon, rfl, rfl⟩

/-- A key is found exactly in texts that start with one. -/
lemma isSome_keyAt?_iff : (keyAt? cs).isSome = true ↔ StartsWithKey cs := by
  rw [Option.isSome_iff_exists, Prod.exists]
  simp only [keyAt?_eq_some_iff]
  exact ⟨fun ⟨depId, rest, key, h⟩ => ⟨depId, key, rest, h⟩,
    fun ⟨depId, key, rest, h⟩ => ⟨depId, rest, key, h⟩⟩

/-- A key starts with a bracket. -/
lemma StartsWithKey.exists_eq_cons (h : StartsWithKey cs) : ∃ rest, cs = '[' :: rest := by
  obtain ⟨depId, key, rest, ⟨owner, name, paddedOwner, paddedName, gap, -, -, -, -, rfl⟩, rfl⟩ := h
  exact ⟨_, rfl⟩

end Keys

/-! ## Imports -/

/-- A specifier: a text that is not empty and holds no quotes. -/
def IsSpecifier (specifier : List Char) : Prop :=
  specifier ≠ [] ∧ ∀ c ∈ specifier, isQuote c = false

/-- An import of a specifier: the word `import`, and the specifier between equal quotes in
parentheses. -/
def IsImport (specifier text : List Char) : Prop :=
  ∃ g₁ g₂ g₃ quote, AllBlank g₁ ∧ AllBlank g₂ ∧ AllBlank g₃ ∧ isQuote quote = true ∧
    IsSpecifier specifier ∧
      text = "import".toList ++
        (g₁ ++ '(' :: (g₂ ++ quote :: (specifier ++ quote :: (g₃ ++ [')']))))

/-- What the first import in a text imports: the specifier of an import such that none begins before
it, or nothing when there is no import. -/
def IsFirstImport (cs : List Char) : Option (List Char) → Prop
  | some specifier => ∃ before text after, cs = before ++ (text ++ after) ∧
      IsImport specifier text ∧ ∀ before' text' after' specifier',
        cs = before' ++ (text' ++ after') → IsImport specifier' text' → before.length ≤ before'.length
  | none => ∀ before text after specifier,
      cs = before ++ (text ++ after) → ¬ IsImport specifier text

section Imports

variable {specifier text rest cs : List Char}

/-- A quoted text is found exactly if it is a specifier between equal quotes. -/
lemma quotedAt?_eq_some_iff :
    quotedAt? cs = some (specifier, rest) ↔ ∃ quote, isQuote quote = true ∧
      IsSpecifier specifier ∧ cs = quote :: (specifier ++ quote :: rest) := by
  cases cs with
  | nil => simp [quotedAt?]
  | cons q tail =>
    constructor
    · intro h
      simp only [quotedAt?] at h
      split at h
      · rename_i hq
        split at h
        · cases h
        · rename_i c after hdrop hne
          split at h
          · rename_i hc
            simp only [Option.some.injEq, Prod.mk.injEq] at h
            obtain ⟨rfl, rfl⟩ := h
            rw [beq_iff_eq] at hc
            refine ⟨q, hq, ⟨hne, fun d hd => ?_⟩, ?_⟩
            · simpa using List.mem_takeWhile_imp hd
            · rw [← hc, ← hdrop, List.takeWhile_append_dropWhile]
          · cases h
        · cases h
      · cases h
    · rintro ⟨quote, hquote, ⟨hne, hplain⟩, hcs⟩
      obtain ⟨rfl, rfl⟩ := List.cons.inj hcs
      have hrun : ∀ d ∈ specifier, (!isQuote d) = true := by
        intro d hd
        simp [hplain d hd]
      have htake : (specifier ++ q :: rest).takeWhile (!isQuote ·) = specifier :=
        takeWhile_run hrun (by simp [hquote])
      have hdrop : (specifier ++ q :: rest).dropWhile (!isQuote ·) = q :: rest :=
        dropWhile_run hrun (by simp [hquote])
      simp only [quotedAt?, hquote, if_true, htake, hdrop, beq_self_eq_true]

/-- A text starts with the word of an import exactly if it goes on behind it. -/
lemma importWord_eq_some_iff :
    (if "import".toList.isPrefixOf cs then some (cs.drop 6) else none) = some rest ↔
      cs = "import".toList ++ rest := by
  constructor
  · intro h
    split at h
    · rename_i hword
      obtain ⟨tail, rfl⟩ := List.isPrefixOf_iff_prefix.1 hword
      rw [show 6 = "import".toList.length from rfl, List.drop_left] at h
      rw [Option.some.inj h]
    · cases h
  · rintro rfl
    rw [if_pos (List.isPrefixOf_iff_prefix.2 (List.prefix_append _ _)),
      show 6 = "import".toList.length from rfl, List.drop_left]

/-- An import is read part by part. -/
lemma importAt?_eq (cs : List Char) :
    importAt? cs =
      ((if "import".toList.isPrefixOf cs then some (cs.drop 6) else none).bind fun rest =>
        (afterChar '(' (rest.dropWhile isBlank)).bind fun rest =>
          (quotedAt? (rest.dropWhile isBlank)).bind fun found =>
            (afterChar ')' (found.2.dropWhile isBlank)).bind fun _ => some found.1) := by
  unfold importAt?
  split
  · rfl
  · rfl

/-- **Imports** are found exactly where they are written. -/
lemma importAt?_eq_some_iff :
    importAt? cs = some specifier ↔ ∃ text rest, IsImport specifier text ∧ cs = text ++ rest := by
  simp only [importAt?_eq, Option.bind_eq_some_iff, Option.some.injEq, Prod.exists,
    afterChar_eq_some_iff, quotedAt?_eq_some_iff, importWord_eq_some_iff]
  constructor
  · rintro ⟨r₁, rfl, r₂, hopen, s, r₃, ⟨quote, hquote, hs, hquoted⟩, r₄, hclose, rfl⟩
    obtain ⟨g₁, hg₁, h₁⟩ := exists_eq_run_append isBlank r₁
    obtain ⟨g₂, hg₂, h₂⟩ := exists_eq_run_append isBlank r₂
    obtain ⟨g₃, hg₃, h₃⟩ := exists_eq_run_append isBlank r₃
    refine ⟨_, r₄, ⟨g₁, g₂, g₃, quote, hg₁, hg₂, hg₃, hquote, hs, rfl⟩, ?_⟩
    rw [h₁, hopen, h₂, hquoted, h₃, hclose]
    simp
  · rintro ⟨_, rest, ⟨g₁, g₂, g₃, quote, hg₁, hg₂, hg₃, hquote, hs, rfl⟩, rfl⟩
    have hblank : isBlank quote = false := by
      by_contra h
      have hnot := isQuote_of_isBlank (c := quote) (by simpa using h)
      rw [hquote] at hnot
      cases hnot
    refine ⟨g₁ ++ '(' :: (g₂ ++ quote :: (specifier ++ quote :: (g₃ ++ ')' :: rest))), by simp,
      _, dropWhile_run hg₁ (by decide), specifier, g₃ ++ ')' :: rest, ⟨quote, hquote, hs, ?_⟩,
      rest, ?_, rfl⟩
    · exact dropWhile_run hg₂ hblank
    · exact dropWhile_run hg₃ (by decide)

/-- Where the front of a text holds no import, the first one is that of what follows. -/
lemma firstImport?_cons_of_none {c : Char} (h : importAt? (c :: cs) = none) :
    firstImport? (c :: cs) = firstImport? cs := by
  rw [firstImport?, h]
  rfl

/-- An import at the front of a text is its first one. -/
lemma firstImport?_cons_of_some {c : Char} (h : importAt? (c :: cs) = some specifier) :
    firstImport? (c :: cs) = some specifier := by
  rw [firstImport?, h]
  rfl

/-- **The first import** is found. -/
lemma isFirstImport_firstImport? (cs : List Char) : IsFirstImport cs (firstImport? cs) := by
  induction cs with
  | nil =>
    rintro before text after specifier hnil ⟨g₁, g₂, g₃, quote, -, -, -, -, -, rfl⟩
    simp at hnil
  | cons c cs ih =>
    cases hfront : importAt? (c :: cs) with
    | some specifier =>
      rw [firstImport?_cons_of_some hfront]
      obtain ⟨text, rest, himport, hcs⟩ := importAt?_eq_some_iff.1 hfront
      exact ⟨[], text, rest, hcs, himport, fun _ _ _ _ _ _ => Nat.zero_le _⟩
    | none =>
      -- An import of the longer text does not stand at its front.
      have hbehind : ∀ before text after specifier, c :: cs = before ++ (text ++ after) →
          IsImport specifier text →
            ∃ before', before = c :: before' ∧ cs = before' ++ (text ++ after) := by
        intro before text after specifier hsplit himport
        rcases before with _ | ⟨d, before⟩
        · have hsome := importAt?_eq_some_iff.2 ⟨text, after, himport, hsplit⟩
          rw [hfront] at hsome
          cases hsome
        · obtain ⟨rfl, hcs⟩ := List.cons.inj hsplit
          exact ⟨before, rfl, hcs⟩
      rw [firstImport?_cons_of_none hfront]
      cases hfirst : firstImport? cs with
      | some specifier =>
        rw [hfirst] at ih
        obtain ⟨before, text, after, rfl, himport, hleast⟩ := ih
        refine ⟨c :: before, text, after, rfl, himport, fun before' text' after' specifier' h' hi => ?_⟩
        obtain ⟨before'', rfl, hcs⟩ := hbehind before' text' after' specifier' h' hi
        exact Nat.succ_le_succ (hleast before'' text' after' specifier' hcs hi)
      | none =>
        rw [hfirst] at ih
        intro before text after specifier hsplit himport
        obtain ⟨before', -, hcs⟩ := hbehind before text after specifier hsplit himport
        exact ih before' text after specifier hcs himport

end Imports

end RouteAssets.Registration
