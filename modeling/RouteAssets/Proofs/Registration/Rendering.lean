import RouteAssets.Proofs.Registration.Comments
import RouteAssets.Proofs.Registration.Extent
import Mathlib.Data.List.Forall2

/-!
# Registrations that are written out and read back

An object literal with one item for each registration is read back as these registrations.

* **Values** (`Value`): texts with closed strings, balanced brackets, no comma outside of them and no
  comment. They carry these facts, so that an item cannot be built from anything else.
* **No comments** (`blankComments_literal`): what opens no comment is copied, whatever is behind it.
* **Keys** (`entriesUpTo_append`): text in which no key starts is passed over.
* **Values in their place** (`valueLength_padded`): a value is scanned as far as it reaches, since
  nothing stops it inside, and what stands behind it does.
* **Imports** (`firstImport?_padded`): the blanks around a value hold no part of an import.
* **Reading back** (`forall₂_entriesUpTo`): by induction on the items, each with the text behind it.
* **Checks** (`Value.ofString`): what is asked of a value is computed for one with a single string.
-/

namespace RouteAssets.Registration

open RouteAssets.Text

/-! ## Items -/

/-- The value of a registration: its strings are closed, its brackets are balanced, its commas stand
in brackets or strings, and comments are opened in strings only. -/
structure Value where
  text : List Char
  plain : List Char
  reads : Reads text plain
  balanced : depthOf plain = 0
  closesOpened : ∀ before after, plain = before ++ after → 0 ≤ depthOf before
  commasInside : ∀ before after, plain = before ++ ',' :: after → 0 < depthOf before
  noComment : ∀ before after outside, text = before ++ after → Reads before outside →
    ¬ OpensComment after

/-- What stands between two items and behind the last one: blanks, such as newlines, with at most
one comma among them. -/
def IsSeparator (cs : List Char) : Prop :=
  ∃ before after, AllBlank before ∧ AllBlank after ∧ (cs = before ∨ cs = before ++ ',' :: after)

/-- A registration to be written: the two identifiers of its key, its value, and the separator
behind it. -/
structure Item where
  owner : List Char
  name : List Char
  value : Value
  separator : List Char
  isName_owner : IsName owner
  isName_name : IsName name
  isSeparator : IsSeparator separator

namespace Item

/-- The dependency of a registration. -/
def depId (item : Item) : DepId := String.ofList (item.owner ++ '.' :: item.name)

/-- The key of a registration as it is written. -/
def key (item : Item) : List Char := '[' :: (item.owner ++ '.' :: (item.name ++ [']', ':']))

/-- What is written behind the key of a registration. -/
def behindKey (item : Item) : List Char := ' ' :: (item.value.text ++ item.separator)

/-- A registration as it is written. -/
def text (item : Item) : List Char := item.key ++ item.behindKey

/-- Where the items of a list start. -/
def starts : List Item → List Nat
  | [] => []
  | item :: items => 0 :: (starts items).map (item.text.length + ·)

/-- A registration is read as an entry: one of its dependency, with the specifier of the first import
in its value. -/
def IsReadAs (item : Item) (e : Entry) : Prop :=
  e.depId = item.depId ∧ IsFirstImport item.value.text (e.specifier.map String.toList)

end Item

/-- Registrations as an object literal, from behind its opening brace. -/
def literalBody (items : List Item) : List Char := items.flatMap Item.text ++ ['\x7d']

/-- Registrations as an object literal behind some text. -/
def literal (before gap : List Char) (items : List Item) : List Char :=
  before ++ '\x7b' :: (gap ++ literalBody items)

section Characters

variable {c : Char} {cs : List Char} {item : Item} {items : List Item}

/-- Blanks are not written with a slash. -/
lemma AllBlank.forall (h : AllBlank cs) : ∀ c ∈ cs, isQuote c = false ∧ c ≠ '/' := by
  intro c hc
  obtain ⟨-, -, hquote, -, -, -, hslash, -⟩ := classes_of_isBlank (h c hc)
  exact ⟨hquote, hslash⟩

/-- No character of an identifier is a quote or a slash. -/
lemma of_isName (h : isNameStart c = true ∨ isNamePart c = true) : isQuote c = false ∧ c ≠ '/' := by
  constructor
  · by_contra hquote
    simp only [isQuote, Bool.not_eq_false, Bool.or_eq_true, beq_iff_eq] at hquote
    rcases hquote with (rfl | rfl) | rfl <;> revert h <;> decide
  · rintro rfl
    revert h
    decide

/-- Identifiers are written without quotes and slashes. -/
lemma IsName.forall (h : IsName cs) : ∀ c ∈ cs, isQuote c = false ∧ c ≠ '/' := by
  obtain ⟨d, cs, rfl, hd, hcs⟩ := h
  exact List.forall_mem_cons.2 ⟨of_isName (Or.inl hd), fun c hc => of_isName (Or.inr (hcs c hc))⟩

/-- Keys are written without quotes and slashes. -/
lemma Item.forall_key (item : Item) : ∀ c ∈ item.key, isQuote c = false ∧ c ≠ '/' := by
  have howner := item.isName_owner.forall
  have hname := item.isName_name.forall
  simp only [Item.key, List.forall_mem_cons, List.forall_mem_append]
  exact ⟨by decide, howner, by decide, hname, by decide, by decide, List.forall_mem_nil _⟩

/-- Separators are written without quotes and slashes. -/
lemma IsSeparator.forall (h : IsSeparator cs) : ∀ c ∈ cs, isQuote c = false ∧ c ≠ '/' := by
  obtain ⟨before, after, hbefore, hafter, rfl | rfl⟩ := h
  · exact hbefore.forall
  · rw [List.forall_mem_append, List.forall_mem_cons]
    exact ⟨hbefore.forall, by decide, hafter.forall⟩

/-- The key of an item is one of its dependency. -/
lemma Item.isKey_key (item : Item) : IsKey item.depId item.key := by
  have hpadded : ∀ name, IsName name → IsPadded name name := by
    intro name h
    exact ⟨[], [], h, List.forall_mem_nil _, List.forall_mem_nil _, by simp⟩
  exact ⟨item.owner, item.name, item.owner, item.name, [], hpadded _ item.isName_owner,
    hpadded _ item.isName_name, List.forall_mem_nil _, rfl, rfl⟩

/-- The key of an item is found. -/
lemma Item.keyAt?_key (item : Item) (rest : List Char) :
    keyAt? (item.key ++ rest) = some (item.depId, rest) :=
  keyAt?_eq_some_iff.2 ⟨item.key, item.isKey_key, rfl⟩

/-- An item in front of others. -/
lemma literalBody_cons (item : Item) (items : List Item) :
    literalBody (item :: items) = item.key ++ (item.behindKey ++ literalBody items) := by
  rw [literalBody, literalBody, List.flatMap_cons, Item.text, List.append_assoc, List.append_assoc]

/-- An object literal goes on with a key or with its closing brace, and both stop a value. -/
lemma stopsValue_literalBody (items : List Item) : StopsValue (literalBody items) := by
  cases items with
  | nil => exact Or.inl ⟨_, _, rfl, Or.inr (by decide)⟩
  | cons item items =>
    rw [literalBody_cons]
    exact Or.inr ⟨_, _, _, item.isKey_key, rfl⟩

/-- An object literal does not go on with a comment that something in front of it has begun. -/
lemma head?_literalBody (items : List Item) :
    (literalBody items).head? ≠ some '/' ∧ (literalBody items).head? ≠ some '*' := by
  cases items with
  | nil => decide
  | cons item items => simp [literalBody_cons, Item.key]

end Characters

/-! ## No comments -/

section Comments

variable {c : Char} {cs u v plain : List Char}

/-- A text opens a comment by itself, if what is behind it does not go on with one. -/
lemma OpensComment.of_append (h : OpensComment (c :: cs ++ v)) (hslash : v.head? ≠ some '/')
    (hstar : v.head? ≠ some '*') : OpensComment (c :: cs) := by
  rw [List.cons_append, opensComment_cons_iff] at h
  rw [opensComment_cons_iff]
  refine ⟨h.1, ?_⟩
  cases cs with
  | nil => exact absurd h.2 (by simp [hslash, hstar])
  | cons d cs => exact h.2

/-- Text that opens no comment outside its strings is copied. -/
lemma blankFrom_append (hreads : Reads u plain)
    (hcomment : ∀ before after outside, u = before ++ after → Reads before outside →
      ¬ OpensComment after)
    (hslash : v.head? ≠ some '/') (hstar : v.head? ≠ some '*') :
    blankFrom .plain (u ++ v) = u ++ blankFrom .plain v := by
  induction hreads with
  | nil => rfl
  | @char c cs plain hplain _ ih =>
    have hfront : ¬ OpensComment (c :: (cs ++ v)) := by
      intro h
      exact hcomment [] (c :: cs) [] rfl .nil (OpensComment.of_append h hslash hstar)
    rw [List.cons_append, blankFrom_char hplain hfront, ih, List.cons_append]
    rintro before after outside rfl hbefore
    exact hcomment (c :: before) after (c :: outside) rfl (.char hplain hbefore)
  | @string quote content cs plain hquote hcontent _ ih =>
    have hrest : blankFrom .plain (cs ++ v) = cs ++ blankFrom .plain v := by
      apply ih
      rintro before after outside rfl hbefore
      refine hcomment (quote :: (content ++ quote :: before)) after outside ?_
        (.string hquote hcontent hbefore)
      simp
    have hstring := blankFrom_string (@IsString.closed quote content (cs ++ v) hquote hcontent)
    rw [hrest] at hstring
    simpa using hstring

/-- Text without quotes and slashes is copied. -/
lemma blankFrom_append_of_forall (hu : ∀ c ∈ u, isQuote c = false ∧ c ≠ '/') :
    blankFrom .plain (u ++ v) = u ++ blankFrom .plain v := by
  induction u with
  | nil => rfl
  | cons c u ih =>
    rw [List.forall_mem_cons] at hu
    have hfront : ¬ OpensComment (c :: (u ++ v)) := by
      rw [opensComment_cons_iff]
      exact fun h => hu.1.2 h.1
    rw [List.cons_append, blankFrom_char hu.1.1 hfront, ih hu.2, List.cons_append]

/-- Items are copied. -/
lemma blankFrom_literalBody (items : List Item) :
    blankFrom .plain (literalBody items) = literalBody items := by
  induction items with
  | nil => rfl
  | cons item items ih =>
    -- The separator opens no comment, nor does it go on with one that ends the value.
    have hseparator : blankFrom .plain (item.separator ++ literalBody items) =
        item.separator ++ literalBody items := by
      rw [blankFrom_append_of_forall item.isSeparator.forall, ih]
    have hhead : (item.separator ++ literalBody items).head? ≠ some '/' ∧
        (item.separator ++ literalBody items).head? ≠ some '*' := by
      obtain ⟨before, after, hbefore, hafter, hsep⟩ := item.isSeparator
      rcases before with _ | ⟨c, before⟩
      · rcases hsep with hsep | hsep
        · rw [hsep]
          exact head?_literalBody items
        · rw [hsep]
          simp
      · obtain ⟨-, -, -, -, -, -, hslash, hstar⟩ :=
          classes_of_isBlank (hbefore c List.mem_cons_self)
        rcases hsep with hsep | hsep <;> simp [hsep, hslash, hstar]
    have hvalue := blankFrom_append item.value.reads item.value.noComment hhead.1 hhead.2
    rw [literalBody_cons, blankFrom_append_of_forall item.forall_key, Item.behindKey,
      List.cons_append, List.append_assoc, blankFrom_char (by decide) ?_, hvalue, hseparator]
    rw [opensComment_cons_iff]
    exact fun h => absurd h.1 (by decide)

/-- An object literal has no comments. -/
lemma blankComments_literal {before gap : List Char} (items : List Item)
    (hquotes : ∀ c ∈ before, isQuote c = false)
    (hcomments : ∀ front behind, before = front ++ behind → ¬ OpensComment behind)
    (hgap : AllBlank gap) : blankComments (literal before gap items) = literal before gap items := by
  have hopening : ∀ c ∈ '\x7b' :: gap, isQuote c = false ∧ c ≠ '/' :=
    List.forall_mem_cons.2 ⟨by decide, hgap.forall⟩
  have hbody : blankFrom .plain ('\x7b' :: gap ++ literalBody items) =
      '\x7b' :: gap ++ literalBody items := by
    rw [blankFrom_append_of_forall hopening, blankFrom_literalBody]
  unfold blankComments literal
  rw [blankFrom_append (reads_of_plain hquotes) (fun front behind _ h _ => hcomments front behind h)
    (by simp) (by simp)]
  exact congrArg _ hbody

end Comments

/-! ## Keys -/

section Keys

variable {u v cs rest : List Char} {n : Nat} {depId : DepId}

/-- Text in which no key starts is passed over. -/
lemma entriesUpTo_append (hkeys : ∀ i < u.length, ¬ StartsWithKey ((u ++ v).drop i)) :
    entriesUpTo (n + u.length) (u ++ v) = entriesUpTo n v := by
  induction u with
  | nil => rfl
  | cons c u ih =>
    have hfront : keyAt? (c :: (u ++ v)) = none := by
      rw [← Option.not_isSome_iff_eq_none, isSome_keyAt?_iff]
      exact hkeys 0 (Nat.zero_lt_succ _)
    rw [List.length_cons, ← Nat.add_assoc, List.cons_append, entriesUpTo, hfront]
    exact ih fun i hi => hkeys (i + 1) (Nat.succ_lt_succ hi)

/-- A key is an entry, and the search goes on behind it. -/
lemma entriesUpTo_key (h : keyAt? cs = some (depId, rest)) :
    entriesUpTo (n + 1) cs = entryOf depId rest :: entriesUpTo n rest := by
  cases cs with
  | nil => cases h
  | cons c cs => rw [entriesUpTo, h]

end Keys

/-! ## Values in their place -/

section Values

variable {c : Char} {blanks cs tail before after : List Char} {value : Value}

/-- Blanks open and close no brackets. -/
lemma depthOf_blanks (h : AllBlank blanks) : depthOf blanks = 0 := by
  induction blanks with
  | nil => rfl
  | cons c blanks ih =>
    obtain ⟨-, -, -, hopener, hcloser, -⟩ := classes_of_isBlank (h c List.mem_cons_self)
    rw [depthOf_cons, depthOf_other hopener hcloser,
      ih fun d hd => h d (List.mem_cons_of_mem c hd)]
    rfl

/-- Neither a comma nor a closing bracket is blank. -/
lemma not_isBlank_of_stops (hc : c = ',' ∨ isCloser c = true) : isBlank c = false := by
  by_contra hblank
  obtain ⟨-, -, -, -, hcloser, hcomma, -⟩ := classes_of_isBlank (by simpa using hblank)
  rcases hc with rfl | hc
  · exact hcomma rfl
  · rw [hc] at hcloser
    cases hcloser

/-- In a value with blanks around it, commas and closing brackets stand inside of brackets. -/
lemma depthOf_pos_of_stops (hblanks : AllBlank blanks) (hc : c = ',' ∨ isCloser c = true)
    (h : ' ' :: (value.plain ++ blanks) = before ++ c :: after) : 0 < depthOf before := by
  have hnot := not_isBlank_of_stops hc
  have hmem : c ∉ blanks := fun hmem => by simp [hblanks c hmem] at hnot
  rcases before with _ | ⟨d, before⟩
  · obtain ⟨rfl, -⟩ := List.cons.inj h
    exact absurd hnot (by decide)
  · obtain ⟨rfl, hvalue⟩ := List.cons.inj h
    replace hvalue : value.plain ++ blanks = before ++ c :: after := hvalue
    rw [depthOf_cons, show depthOf [' '] = 0 from rfl, Int.zero_add]
    rcases List.append_eq_append_iff.1 hvalue with ⟨front, rfl, hb⟩ | ⟨front, hplain, hb⟩
    · exact absurd (by rw [hb]; simp) hmem
    · rcases front with _ | ⟨e, front⟩
      · exact absurd (by rw [← List.nil_append blanks, ← hb]; simp) hmem
      · obtain ⟨rfl, -⟩ := List.cons.inj hb
        rcases hc with rfl | hcloser
        · exact value.commasInside before front hplain
        · have hclosed := value.closesOpened (before ++ [c]) front (by simp [hplain])
          rw [depthOf_append, depthOf_closer hcloser] at hclosed
          omega

/-- **A value with blanks around it is scanned as far as it reaches**, if no key starts in it and
what is behind it stops a value. -/
lemma valueLength_padded (hblanks : AllBlank blanks) (hstop : StopsValue tail)
    (hkeys : ∀ i < (' ' :: (value.text ++ blanks)).length,
      ¬ StartsWithKey ((' ' :: (value.text ++ blanks) ++ tail).drop i)) :
    valueLength (' ' :: (value.text ++ blanks) ++ tail) =
      (' ' :: (value.text ++ blanks)).length := by
  have hreads : Reads (' ' :: (value.text ++ blanks)) (' ' :: (value.plain ++ blanks)) :=
    .char (by decide) (value.reads.append (reads_of_plain fun c hc =>
      isQuote_of_isBlank (hblanks c hc)))
  generalize ' ' :: (value.text ++ blanks) = padded at hreads hkeys ⊢
  have hdepth : depthOf (' ' :: (value.plain ++ blanks)) = 0 := by
    rw [depthOf_cons, depthOf_append, value.balanced, depthOf_blanks hblanks]
    rfl
  have hend : IsEndFrom 0 (padded ++ tail) padded.length :=
    ⟨_, by rwa [List.take_left], by rw [hdepth]; rfl, by rwa [List.drop_left]⟩
  -- Nothing stops the value inside: brackets are open there, and no key starts.
  have hnone : ∀ m < padded.length, ¬ IsEndFrom 0 (padded ++ tail) m := by
    rintro m hm ⟨plain, hfront, hzero, hstops⟩
    rcases hstops with ⟨c, rest, hdrop, hc⟩ | hkey
    · have hsplit : padded = padded.take m ++ c :: (padded.drop (m + 1)) := by
        have hcons : padded.drop m ++ tail = c :: rest := by
          rw [← hdrop, List.drop_append_of_le_length (by omega)]
        rw [List.drop_eq_getElem_cons hm, List.cons_append] at hcons
        obtain ⟨rfl, -⟩ := List.cons.inj hcons
        rw [← List.drop_eq_getElem_cons hm, List.take_append_drop]
      rw [List.take_append_of_le_length (by omega)] at hfront
      rw [hsplit] at hreads
      obtain ⟨behind, hbehind, hplain⟩ := hfront.of_append hreads
      obtain ⟨after, -, rfl⟩ := (reads_char_iff (isQuote_of_stops hc)).1 hbehind
      have hpos := depthOf_pos_of_stops hblanks hc hplain
      omega
    · exact hkeys m hm hkey
  rcases isExtent_valueLengthFrom 0 (padded ++ tail) with ⟨hlength, hleast⟩ | ⟨hnever, -⟩
  · refine le_antisymm (hleast hend) ?_
    by_contra hlt
    exact hnone _ (Nat.lt_of_not_le hlt) hlength
  · exact absurd hend (hnever _)

end Values

/-! ## Imports -/

section Imports

variable {cs blanks text specifier : List Char}

/-- An import ends with a parenthesis. -/
lemma IsImport.exists_concat (h : IsImport specifier text) : ∃ front, text = front ++ [')'] := by
  obtain ⟨g₁, g₂, g₃, quote, -, -, -, -, -, rfl⟩ := h
  exact ⟨"import".toList ++ (g₁ ++ '(' :: (g₂ ++ quote :: (specifier ++ quote :: g₃))), by simp⟩

/-- Blanks behind a text are no part of an import at its front. -/
lemma importAt?_append_blanks (hblanks : AllBlank blanks) :
    importAt? (cs ++ blanks) = importAt? cs := by
  ext specifier
  rw [importAt?_eq_some_iff, importAt?_eq_some_iff]
  constructor
  · rintro ⟨text, rest, himport, h⟩
    rcases List.append_eq_append_iff.1 h with ⟨part, htext, hpart⟩ | ⟨rest', hcs, -⟩
    · rcases List.eq_nil_or_concat part with rfl | ⟨part', c, rfl⟩
      · exact ⟨text, [], himport, by rw [htext, List.append_nil, List.append_nil]⟩
      · -- the parenthesis at the end would be blank
        obtain ⟨front, hfront⟩ := himport.exists_concat
        rw [htext, List.concat_eq_append, ← List.append_assoc] at hfront
        have hc : c = ')' := by simpa using (List.append_inj' hfront rfl).2
        have hblank := hblanks c (by rw [hpart]; simp)
        rw [hc] at hblank
        exact absurd hblank (by decide)
    · exact ⟨text, rest', himport, hcs⟩
  · rintro ⟨text, rest, himport, rfl⟩
    exact ⟨text, rest ++ blanks, himport, List.append_assoc _ _ _⟩

/-- Blanks hold no import. -/
lemma firstImport?_blanks (hblanks : AllBlank blanks) : firstImport? blanks = none := by
  induction blanks with
  | nil => rfl
  | cons c blanks ih =>
    have hfront : importAt? (c :: blanks) = none := by
      rw [← List.nil_append (c :: blanks), importAt?_append_blanks hblanks]
      rfl
    rw [firstImport?_cons_of_none hfront, ih fun d hd => hblanks d (List.mem_cons_of_mem c hd)]

/-- Blanks around a text do not change its first import. -/
lemma firstImport?_padded (hblanks : AllBlank blanks) :
    firstImport? (' ' :: (cs ++ blanks)) = firstImport? cs := by
  have hfront : importAt? (' ' :: (cs ++ blanks)) = none := rfl
  rw [firstImport?_cons_of_none hfront]
  clear hfront
  induction cs with
  | nil => exact firstImport?_blanks hblanks
  | cons c cs ih =>
    have hsame : importAt? (c :: (cs ++ blanks)) = importAt? (c :: cs) :=
      @importAt?_append_blanks (c :: cs) blanks hblanks
    rw [List.cons_append, firstImport?, firstImport?, hsame, ih]

end Imports

/-! ## Reading back -/

section ReadingBack

variable {n : Nat} {items : List Item} {item : Item}

/-- What is behind the key of an item is read as its value. -/
lemma isReadAs_entryOf
    (hkeys : ∀ i < item.behindKey.length,
      ¬ StartsWithKey ((item.behindKey ++ literalBody items).drop i)) :
    item.IsReadAs (entryOf item.depId (item.behindKey ++ literalBody items)) := by
  -- The value ends at the comma of the separator, or behind all of its blanks.
  have hend : ∃ blanks tail, AllBlank blanks ∧ StopsValue tail ∧
      item.separator ++ literalBody items = blanks ++ tail ∧
        blanks.length ≤ item.separator.length := by
    obtain ⟨blanks, after, hblanks, -, hseparator | hseparator⟩ := item.isSeparator
    · exact ⟨blanks, literalBody items, hblanks, stopsValue_literalBody items, by rw [hseparator],
        by rw [hseparator]⟩
    · refine ⟨blanks, ',' :: (after ++ literalBody items), hblanks,
        Or.inl ⟨',', _, rfl, Or.inl rfl⟩, by rw [hseparator]; simp, ?_⟩
      rw [hseparator, List.length_append]
      exact Nat.le_add_right _ _
  obtain ⟨blanks, tail, hblanks, hstop, hsplit, hle⟩ := hend
  have htext : item.behindKey ++ literalBody items =
      ' ' :: (item.value.text ++ blanks) ++ tail := by
    rw [Item.behindKey, List.cons_append, List.append_assoc, hsplit]
    simp
  have hlength : valueLength (' ' :: (item.value.text ++ blanks) ++ tail) =
      (' ' :: (item.value.text ++ blanks)).length := by
    apply valueLength_padded hblanks hstop
    intro i hi
    rw [← htext]
    refine hkeys i (Nat.lt_of_lt_of_le hi ?_)
    simp only [Item.behindKey, List.length_cons, List.length_append]
    omega
  refine ⟨rfl, ?_⟩
  have hspecifier : (entryOf item.depId (item.behindKey ++ literalBody items)).specifier.map
      String.toList = firstImport? item.value.text := by
    unfold entryOf
    rw [htext, hlength, List.take_left, firstImport?_padded hblanks, Option.map_map]
    cases firstImport? item.value.text with
    | none => rfl
    | some specifier => simp
  rw [hspecifier]
  exact isFirstImport_firstImport? item.value.text

/-- **Items are read back**, if keys start nowhere but at their starts. -/
lemma forall₂_entriesUpTo
    (hkeys : ∀ i, StartsWithKey ((literalBody items).drop i) → i ∈ Item.starts items) :
    List.Forall₂ Item.IsReadAs items (entriesUpTo (n + (literalBody items).length)
      (literalBody items)) := by
  induction items generalizing n with
  | nil =>
    have hnone : entriesUpTo (n + 1) (literalBody []) = [] := by
      have hbrace := entriesUpTo_append (u := ['\x7d']) (v := []) (n := n) fun i _ hkey => by
        have hmem := hkeys i hkey
        cases hmem
      rw [List.append_nil] at hbrace
      rw [show literalBody [] = ['\x7d'] from rfl]
      refine hbrace.trans ?_
      cases n <;> rfl
    rw [show (literalBody []).length = 1 from rfl, hnone]
    exact .nil
  | cons item items ih =>
    have htext : literalBody (item :: items) = item.text ++ literalBody items := by
      rw [literalBody_cons, Item.text, List.append_assoc]
    -- A key of the text behind the item starts where one of the other items does.
    have hothers : ∀ i, StartsWithKey ((literalBody items).drop i) → i ∈ Item.starts items := by
      intro i hkey
      have hmem := hkeys (item.text.length + i) (by rwa [htext, List.drop_length_add_append])
      rw [Item.starts, List.mem_cons, List.mem_map] at hmem
      rcases hmem with hzero | ⟨j, hj, hsum⟩
      · simp [Item.text, Item.key] at hzero
      · rwa [← Nat.add_left_cancel hsum]
    have hinside : ∀ i < item.behindKey.length,
        ¬ StartsWithKey ((item.behindKey ++ literalBody items).drop i) := by
      intro i hi hkey
      have hmem := hkeys (item.key.length + i) (by
        rwa [literalBody_cons, List.drop_length_add_append])
      rw [Item.starts, List.mem_cons, List.mem_map] at hmem
      rcases hmem with hzero | ⟨j, -, hsum⟩
      · simp [Item.key] at hzero
      · rw [Item.text, List.length_append] at hsum
        omega
    have hkey := item.keyAt?_key (item.behindKey ++ literalBody items)
    have hsteps : n + (literalBody (item :: items)).length =
        n + (item.key.length - 1) + (literalBody items).length + item.behindKey.length + 1 := by
      rw [literalBody_cons, List.length_append, List.length_append]
      simp only [Item.key, List.length_cons]
      omega
    rw [hsteps, literalBody_cons, entriesUpTo_key hkey, entriesUpTo_append hinside]
    exact .cons (isReadAs_entryOf hinside) (ih hothers)

end ReadingBack

/-- **Registrations are read back as they were written.** Behind a text without quotes and comments,
an object literal with an item for each of them has one entry for each item, in order and with
repeated keys kept, if keys start nowhere but at the items. The specifier of an entry is that of the
first import in the value of its own item. -/
theorem entries_literal {before gap : List Char} {items : List Item}
    (hquotes : ∀ c ∈ before, isQuote c = false)
    (hcomments : ∀ front behind, before = front ++ behind → ¬ OpensComment behind)
    (hgap : AllBlank gap)
    (hkeys : ∀ i, StartsWithKey ((literal before gap items).drop i) →
      ∃ k ∈ Item.starts items, i = (before ++ '\x7b' :: gap).length + k) :
    List.Forall₂ Item.IsReadAs items (entries (String.ofList (literal before gap items))) := by
  have htext : literal before gap items = (before ++ '\x7b' :: gap) ++ literalBody items := by
    rw [literal, List.append_assoc, List.cons_append]
  have hfront : ∀ i < (before ++ '\x7b' :: gap).length,
      ¬ StartsWithKey (((before ++ '\x7b' :: gap) ++ literalBody items).drop i) := by
    intro i hi hkey
    obtain ⟨k, -, hk⟩ := hkeys i (by rwa [htext])
    omega
  have hbody : ∀ i, StartsWithKey ((literalBody items).drop i) → i ∈ Item.starts items := by
    intro i hkey
    obtain ⟨k, hk, hsum⟩ := hkeys ((before ++ '\x7b' :: gap).length + i) (by
      rwa [htext, List.drop_length_add_append])
    rwa [Nat.add_left_cancel hsum]
  unfold entries
  dsimp only
  rw [String.toList_ofList, blankComments_literal items hquotes hcomments hgap, htext,
    List.length_append, Nat.add_comm, entriesUpTo_append hfront, ← Nat.zero_add (List.length _)]
  exact forall₂_entriesUpTo hbody

/-! ## Values that are checked -/

section Checked

variable {cs content plain : List Char} {quote : Char}

/-- Is a comment opened at the front of a text? -/
def opensComment (cs : List Char) : Bool :=
  ['/', '/'].isPrefixOf cs || ['/', '*'].isPrefixOf cs

/-- The check finds the comments. -/
lemma opensComment_eq_true_iff : opensComment cs = true ↔ OpensComment cs := by
  rw [opensComment, Bool.or_eq_true, List.isPrefixOf_iff_prefix, List.isPrefixOf_iff_prefix]
  constructor
  · rintro (⟨rest, rfl⟩ | ⟨rest, rfl⟩)
    · exact ⟨rest, Or.inl rfl⟩
    · exact ⟨rest, Or.inr rfl⟩
  · rintro ⟨rest, rfl | rfl⟩
    · exact Or.inl (List.prefix_append _ _)
    · exact Or.inr (List.prefix_append _ _)

/-- A text of which no tail opens a comment has none. -/
lemma not_opensComment_of_all (h : cs.tails.all (!opensComment ·) = true) {front behind : List Char}
    (hsplit : cs = front ++ behind) : ¬ OpensComment behind := by
  rw [← opensComment_eq_true_iff, Bool.not_eq_true]
  have hmem : behind ∈ cs.tails := (List.mem_tails _ _).2 ⟨front, hsplit.symm⟩
  simpa using List.all_eq_true.1 h behind hmem

/-- Are the brackets of a value balanced, with its commas inside of them? -/
def isBalanced (plain : List Char) : Bool :=
  depthOf plain == 0 && plain.inits.all fun before =>
    decide (0 ≤ depthOf before) && (!(before ++ [',']).isPrefixOf plain || decide (0 < depthOf before))

/-- A value that passes the check has balanced brackets, and its commas stand inside of them. -/
lemma isBalanced_iff : isBalanced plain = true ↔ depthOf plain = 0 ∧ ∀ before, before <+: plain →
    0 ≤ depthOf before ∧ (before ++ [','] <+: plain → 0 < depthOf before) := by
  simp only [isBalanced, Bool.and_eq_true, beq_iff_eq, List.all_eq_true, List.mem_inits,
    decide_eq_true_eq, Bool.or_eq_true, Bool.not_eq_true', ← List.isPrefixOf_iff_prefix,
    imp_iff_not_or, Bool.not_eq_true]

/-- A string without backslashes and its own quote. -/
lemma isContent_of_all (h : content.all (fun c => c != '\\' && c != quote) = true) :
    IsContent quote content := by
  induction content with
  | nil => exact .nil
  | cons c content ih =>
    rw [List.all_cons, Bool.and_eq_true, Bool.and_eq_true, bne_iff_ne, bne_iff_ne] at h
    exact .char h.1.1 h.1.2 (ih h.2)

/-- A text without quotes is plain. -/
lemma forall_isQuote_of_all (h : cs.all (!isQuote ·) = true) : ∀ c ∈ cs, isQuote c = false := by
  simpa using h

/-- A value with one string in it and no comment, not even in the string. -/
def Value.ofString (quote : Char) (front content back : List Char) (hquote : isQuote quote = true)
    (hfront : front.all (!isQuote ·) = true) (hback : back.all (!isQuote ·) = true)
    (hcontent : content.all (fun c => c != '\\' && c != quote) = true)
    (hbalanced : isBalanced (front ++ back) = true)
    (hcomment : (front ++ quote :: (content ++ quote :: back)).tails.all (!opensComment ·) = true) :
    Value where
  text := front ++ quote :: (content ++ quote :: back)
  plain := front ++ back
  reads := (reads_of_plain (forall_isQuote_of_all hfront)).append
    (.string hquote (isContent_of_all hcontent) (reads_of_plain (forall_isQuote_of_all hback)))
  balanced := (isBalanced_iff.1 hbalanced).1
  closesOpened before after hplain := ((isBalanced_iff.1 hbalanced).2 before ⟨after, hplain.symm⟩).1
  commasInside before after hplain :=
    ((isBalanced_iff.1 hbalanced).2 before ⟨_, hplain.symm⟩).2 ⟨after, by simp [hplain]⟩
  noComment _ _ _ htext _ := not_opensComment_of_all hcomment htext

/-- No key starts behind the end of a text. -/
lemma StartsWithKey.lt_length {i : Nat} (h : StartsWithKey (cs.drop i)) : i < cs.length := by
  obtain ⟨rest, hdrop⟩ := h.exists_eq_cons
  by_contra hle
  rw [List.drop_eq_nil_of_le (Nat.le_of_not_lt hle)] at hdrop
  cases hdrop

/-- An item of the namespace `DEPS` with a name of one letter. -/
def depsItem (letter : Char) (value : Value) (separator : List Char)
    (hletter : isNameStart letter = true) (hseparator : IsSeparator separator) : Item where
  owner := "DEPS".toList
  name := [letter]
  value := value
  separator := separator
  isName_owner := ⟨'D', "EPS".toList, rfl, by decide, List.all_eq_true.1 (by decide)⟩
  isName_name := ⟨letter, [], rfl, hletter, List.forall_mem_nil _⟩
  isSeparator := hseparator

/-- A call: a comma and a closing bracket in a string, another comma in brackets. -/
def callValue : Value :=
  .ofString '\x22' "f(".toList "a,b]".toList ", [1, 2])".toList (by decide) (by decide) (by decide)
    (by decide) (by decide) (by decide)

/-- A function that imports. -/
def lazyValue : Value :=
  .ofString '\x27' "() => import(".toList "./b".toList ")".toList (by decide) (by decide) (by decide)
    (by decide) (by decide) (by decide)

/-- An object with an import in it. -/
def objectValue : Value :=
  .ofString '\x22' "\x7b x: import( ".toList "./c".toList " ) \x7d".toList (by decide) (by decide)
    (by decide) (by decide) (by decide) (by decide)

/-- Two registrations of one key around another one, with a comma or a line end between them. -/
def threeItems : List Item :=
  [depsItem 'A' callValue ",\n  ".toList (by decide) ⟨[], "\n  ".toList, List.forall_mem_nil _,
      List.all_eq_true.1 (by decide), Or.inr rfl⟩,
    depsItem 'B' lazyValue "\n  ".toList (by decide) ⟨"\n  ".toList, [],
      List.all_eq_true.1 (by decide), List.forall_mem_nil _, Or.inl rfl⟩,
    depsItem 'A' objectValue ",\n".toList (by decide) ⟨[], "\n".toList, List.forall_mem_nil _,
      List.all_eq_true.1 (by decide), Or.inr rfl⟩]

/-- Three registrations behind a declaration are read back: the bracket in the string of the first
one does not end it, and it is not given the import of the second one. -/
theorem entries_literal_of_threeItems :
    String.ofList (literal "const deps = ".toList "\n  ".toList threeItems) =
        "const deps = \x7b\n  [DEPS.A]: f(\x22a,b]\x22, [1, 2]),\n  [DEPS.B]: () => import('./b')" ++
          "\n  [DEPS.A]: \x7b x: import( \x22./c\x22 ) \x7d,\n\x7d" ∧
      List.Forall₂ Item.IsReadAs threeItems
        (entries (String.ofList (literal "const deps = ".toList "\n  ".toList threeItems))) := by
  have hkeys : ((List.range (literal "const deps = ".toList "\n  ".toList threeItems).length).all
      fun i => !(keyAt? ((literal "const deps = ".toList "\n  ".toList threeItems).drop i)).isSome ||
        (Item.starts threeItems).any fun k => i == 17 + k) = true := by decide +kernel
  refine ⟨by decide +kernel, entries_literal (forall_isQuote_of_all (by decide))
    (fun _ _ => not_opensComment_of_all (by decide)) (List.all_eq_true.1 (by decide)) ?_⟩
  intro i hkey
  have hfound := List.all_eq_true.1 hkeys i (List.mem_range.2 hkey.lt_length)
  rw [isSome_keyAt?_iff.2 hkey] at hfound
  simpa using hfound

end Checked

end RouteAssets.Registration
