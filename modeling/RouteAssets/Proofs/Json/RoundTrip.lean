import RouteAssets.Json.Reader
import RouteAssets.Json.Writer
import RouteAssets.Proofs.Table

/-!
# Written JSON is read back

The proof follows the writer from the inside out.

* **Characters** (`isWrittenAs`, `IsWrittenAs.exists_pieces`): a character is written in one of four
  ways, and each is read as pieces that stand for it, whatever follows. A character is no half of a
  surrogate pair, so that two escaped units are joined only where one character was taken apart.
* **Strings** (`readString_written`): character by character, up to the closing mark.
* **Containers** (`exists_readContainer`): items that are read back one by one are read back together,
  with whatever gaps the layout puts between them. Arrays and objects are two cases of this.
* **Values** (`readValue_written`, `read_written`): by induction on the bound of the reader. The
  length of the text is a bound, since the texts of items are shorter than that of their container.

Numbers are left out: what is said here is about the values of which route maps are made.
-/

namespace RouteAssets

open RouteAssets.Text

/-! ## Hexadecimal digits -/

/-- One more digit in front of at least one: the last digit is split off. -/
lemma Text.hexDigits_succ {width : Nat} (hw : 0 < width) (n : Nat) :
    hexDigits (width + 1) n = hexDigits width (n / 16) ++ [Nat.digitChar (n % 16)] := by
  obtain ⟨width, rfl⟩ : ∃ k, width = k + 1 := ⟨width - 1, by omega⟩
  unfold hexDigits
  by_cases hn : n < 16
  · have hzero : n / 16 = 0 := Nat.div_eq_of_lt hn
    rw [hzero, Nat.toDigits_of_lt_base hn, Nat.toDigits_of_lt_base (by decide), Nat.mod_eq_of_lt hn]
    simp [List.replicate_succ']
  · rw [Nat.toDigits_of_base_le (b := 16) (by decide) (by omega)]
    simp

/-- The four digits of a unit. -/
lemma Text.hexDigits_four {n : Nat} (hn : n < 0x10000) :
    hexDigits 4 n = [Nat.digitChar (n / 0x1000), Nat.digitChar (n / 0x100 % 16),
      Nat.digitChar (n / 16 % 16), Nat.digitChar (n % 16)] := by
  have hone : ∀ k < 16, hexDigits 1 k = [Nat.digitChar k] := by decide
  rw [hexDigits_succ (by decide), hexDigits_succ (by decide), hexDigits_succ (by decide),
    hone _ (by omega)]
  simp [Nat.div_div_eq_div_mul]

namespace Json

/-- Digits are read back. -/
lemma hexValue?_digitChar : ∀ k < 16, hexValue? (Nat.digitChar k) = some k := by decide

/-- Escaped units are read back. -/
lemma exists_unitEscape {n : Nat} (hn : n < 0x10000) :
    ∃ a b c d, unitEscape n = ['\\', 'u', a, b, c, d] ∧ unitOf? a b c d = some n := by
  refine ⟨_, _, _, _, by rw [unitEscape, hexDigits_four hn], ?_⟩
  simp only [unitOf?, hexValue?_digitChar (n / 0x1000) (by omega),
    hexValue?_digitChar _ (Nat.mod_lt _ (by decide : 0 < 16)), Option.bind_eq_bind, Option.bind_some,
    Option.pure_def, Option.some.injEq]
  omega

/-! ## Characters -/

/-- A character is no half of a surrogate pair. -/
lemma toNat_not_surrogate (c : Char) : isHighUnit c.toNat = false ∧ isLowUnit c.toNat = false := by
  have hvalid : c.toNat < 0xd800 ∨ 0xdfff < c.toNat ∧ c.toNat < 0x110000 := c.valid
  simp only [isHighUnit, isLowUnit, Bool.and_eq_false_iff, decide_eq_false_iff_not]
  omega

/-- A character is written in one of four ways: by a one-letter escape, as it is, by one escaped
unit, or by a surrogate pair. -/
inductive IsWrittenAs (c : Char) : List Char → Prop
  | escape {e : Char} (hne : e ≠ 'u') (he : escapeOf? e = some c) : IsWrittenAs c ['\\', e]
  | plain (hlow : 0x20 ≤ c.toNat) (hhigh : c.toNat < 0x7f) (hmark : c ≠ '\x22')
      (hback : c ≠ '\\') : IsWrittenAs c [c]
  | unit (hc : c.toNat < 0x10000) : IsWrittenAs c (unitEscape c.toNat)
  | pair (hc : 0x10000 ≤ c.toNat) : IsWrittenAs c
      (unitEscape (0xd800 + (c.toNat - 0x10000) / 0x400) ++
        unitEscape (0xdc00 + (c.toNat - 0x10000) % 0x400))

/-- Every character is written in one of these ways. -/
lemma isWrittenAs (c : Char) : IsWrittenAs c (writtenChar c) := by
  unfold writtenChar
  split
  case h_8 hmark hback _ _ _ _ _ =>
    dsimp only
    split
    · rename_i hplain
      rw [Bool.and_eq_true, decide_eq_true_eq, decide_eq_true_eq] at hplain
      exact .plain hplain.1 hplain.2 hmark hback
    · split
      · rename_i hunit
        exact .unit hunit
      · rename_i hunit
        exact .pair (by omega)
  all_goals exact .escape (by decide) rfl

/-- The pieces that a character is read as: they stand for the character, whatever follows. -/
lemma IsWrittenAs.exists_pieces {c : Char} {t : List Char} (h : IsWrittenAs c t) :
    ∃ ps : List Piece,
      (∀ cs, stringPieces (t ++ cs) = (stringPieces cs).map fun (qs, rest) => (ps ++ qs, rest)) ∧
      ∀ qs, joinPieces (ps ++ qs) = c :: joinPieces qs := by
  obtain ⟨hhigh, hlow⟩ := toNat_not_surrogate c
  cases h with
  | @escape e hne he =>
    refine ⟨[.char c], fun cs => ?_, fun qs => rfl⟩
    simp [stringPieces, hne, he]
  | plain hspace hdelete hmark hback =>
    refine ⟨[.char c], fun cs => ?_, fun qs => rfl⟩
    have hnot : ¬ c.toNat < 0x20 := by omega
    simp [stringPieces, hmark, hback, hnot]
  | unit hc =>
    obtain ⟨x, y, z, w, hescape, hunit⟩ := exists_unitEscape hc
    refine ⟨[.unit c.toNat], fun cs => ?_, fun qs => ?_⟩
    · rw [hescape]
      simp [stringPieces, hunit]
    · have hchar : unitChar c.toNat = c := by simp [unitChar, hhigh, hlow]
      rcases qs with _ | ⟨_ | m, qs⟩ <;> simp [joinPieces, hhigh, hchar]
  | pair hc =>
    have hmax : c.toNat < 0x110000 := by
      have hvalid : c.toNat < 0xd800 ∨ 0xdfff < c.toNat ∧ c.toNat < 0x110000 := c.valid
      omega
    obtain ⟨high, hhigh⟩ : ∃ n, n = 0xd800 + (c.toNat - 0x10000) / 0x400 := ⟨_, rfl⟩
    obtain ⟨low, hlow⟩ : ∃ n, n = 0xdc00 + (c.toNat - 0x10000) % 0x400 := ⟨_, rfl⟩
    obtain ⟨x, y, z, w, hescape, hunit⟩ := exists_unitEscape (show high < 0x10000 by omega)
    obtain ⟨x', y', z', w', hescape', hunit'⟩ := exists_unitEscape (show low < 0x10000 by omega)
    rw [← hhigh, ← hlow]
    refine ⟨[.unit high, .unit low], fun cs => ?_, fun qs => ?_⟩
    · rw [hescape, hescape']
      cases hrest : stringPieces cs <;> simp [stringPieces, hunit, hunit', hrest, Except.map]
    · have hpair : isHighUnit high = true ∧ isLowUnit low = true := by
        simp only [isHighUnit, isLowUnit, Bool.and_eq_true, decide_eq_true_eq]
        omega
      have hjoined : 0x10000 + (high - 0xd800) * 0x400 + (low - 0xdc00) = c.toNat := by omega
      simp only [List.cons_append, List.nil_append, joinPieces, hpair.1, hpair.2, Bool.and_self,
        if_true, hjoined, Char.ofNat_toNat]

/-- The characters of a string are read back, up to the mark that closes it. -/
lemma exists_stringPieces (cs rest : List Char) : ∃ ps : List Piece,
    stringPieces (cs.flatMap writtenChar ++ '\x22' :: rest) = .ok (ps, rest) ∧
      joinPieces ps = cs := by
  induction cs with
  | nil => exact ⟨[], by simp [stringPieces], rfl⟩
  | cons c cs ih =>
    obtain ⟨qs, hqs, hcs⟩ := ih
    obtain ⟨ps, hps, hc⟩ := (isWrittenAs c).exists_pieces
    refine ⟨ps ++ qs, ?_, by rw [hc, hcs]⟩
    rw [List.flatMap_cons, List.append_assoc, hps, hqs]
    rfl

/-- A written string is read back from behind its first mark. -/
lemma readString_written (s : String) (rest : List Char) :
    readString (s.toList.flatMap writtenChar ++ '\x22' :: rest) = .ok (s, rest) := by
  obtain ⟨ps, hps, hs⟩ := exists_stringPieces s.toList rest
  rw [readString, hps]
  simp [Except.map, hs]

/-! ## Containers -/

/-- A gap is skipped. -/
lemma skipGap_append {gap : List Char} (h : ∀ c ∈ gap, isGap c = true) (cs : List Char) :
    skipGap (gap ++ cs) = skipGap cs := by
  induction gap with
  | nil => rfl
  | cons c gap ih =>
    obtain ⟨hc, hgap⟩ := List.forall_mem_cons.1 h
    rw [List.cons_append, skipGap, List.dropWhile_cons_of_pos hc]
    exact ih hgap

/-- What is no gap stays. -/
lemma skipGap_cons {c : Char} (hc : isGap c = false) (cs : List Char) :
    skipGap (c :: cs) = c :: cs := by
  rw [skipGap, List.dropWhile_cons_of_neg (by simp [hc])]

namespace Layout

/-- The gap in front of every item but the first one. -/
def gap (layout : Layout) (level : Nat) : List Char :=
  match layout with
  | line => [' ']
  | indented => newLine level

/-- Between two items there are a comma and a gap. -/
lemma between_eq (layout : Layout) (level : Nat) :
    layout.between level = ',' :: layout.gap level := by
  cases layout <;> rfl

/-- Line ends and indentations are gaps. -/
lemma isGap_newLine {level : Nat} : ∀ c ∈ newLine level, isGap c = true := by
  intro c hc
  rcases List.mem_cons.1 hc with rfl | hc
  · rfl
  · rw [List.eq_of_mem_replicate hc]
    rfl

/-- Nothing but a gap stands in front of the first item. -/
lemma isGap_start (layout : Layout) (level : Nat) : ∀ c ∈ layout.start level, isGap c = true := by
  cases layout with
  | line => simp [start]
  | indented => exact isGap_newLine

/-- Nothing but a gap stands behind a comma. -/
lemma isGap_gap (layout : Layout) (level : Nat) : ∀ c ∈ layout.gap level, isGap c = true := by
  cases layout with
  | line => simp [gap, isGap]
  | indented => exact isGap_newLine

/-- A container with the texts of its items. -/
def container (layout : Layout) (level : Nat) (opening closing : Char) :
    List (List Char) → List Char
  | [] => [opening, closing]
  | t :: ts =>
    opening :: (layout.start (level + 1) ++ t ++
      (ts.flatMap (layout.between (level + 1) ++ ·) ++ (layout.start level ++ [closing])))

/-- The texts of the items are shorter than the container, and no more than its characters. -/
lemma length_container (layout : Layout) (level : Nat) (opening closing : Char)
    (ts : List (List Char)) :
    (∀ t ∈ ts, t.length < (layout.container level opening closing ts).length) ∧
      ts.length < (layout.container level opening closing ts).length := by
  cases ts with
  | nil => simp [container]
  | cons t ts =>
    have hmem : ∀ u ∈ ts, u.length ≤ (ts.flatMap (layout.between (level + 1) ++ ·)).length := by
      intro u hu
      obtain ⟨before, after, rfl⟩ := List.append_of_mem hu
      simp only [List.flatMap_append, List.flatMap_cons, List.length_append]
      omega
    have hcount : ts.length ≤ (ts.flatMap (layout.between (level + 1) ++ ·)).length := by
      clear hmem
      induction ts with
      | nil => exact Nat.zero_le _
      | cons u ts ih =>
        rw [List.flatMap_cons, layout.between_eq, List.length_append, List.length_cons]
        simp only [List.length_append, List.length_cons]
        rw [layout.between_eq] at ih
        omega
    simp only [container, List.length_cons, List.length_append, List.mem_cons]
    constructor
    · rintro u (rfl | hu)
      · omega
      · have := hmem u hu
        omega
    · omega

end Layout

/-- A text is one of an item: it is read as the item, whatever follows, and starts with neither a gap
nor the mark that closes the container. -/
structure Reads {α : Type} (item : Read α) (closing : Char) (t : List Char) (x : α) : Prop where
  item_eq : ∀ rest, item (t ++ rest) = .ok (x, rest)
  starts : ∃ c cs, t = c :: cs ∧ isGap c = false ∧ c ≠ closing

/-- A text of an item stands behind a gap. -/
lemma Reads.skipGap_eq {α : Type} {item : Read α} {closing : Char} {t : List Char} {x : α}
    (h : Reads item closing t x) {gap : List Char} (hgap : ∀ c ∈ gap, isGap c = true)
    (rest : List Char) : skipGap (gap ++ (t ++ rest)) = t ++ rest := by
  obtain ⟨c, cs, rfl, hc, -⟩ := h.starts
  rw [skipGap_append hgap, List.cons_append, skipGap_cons hc]

section Containers

variable {α : Type} {item : Read α} {closing : Char} {text : α → List Char}

/-- Items are read one by one, up to the mark that closes the container. -/
lemma readItems_written (layout : Layout) (level : Nat) (hclosing : isGap closing = false)
    (hcomma : closing ≠ ',') {last : List Char} (hlast : ∀ c ∈ last, isGap c = true) {x : α}
    {xs : List α} (h : ∀ y ∈ x :: xs, Reads item closing (text y) y) {n : Nat} (hn : xs.length < n)
    (gap : List Char) (hgap : ∀ c ∈ gap, isGap c = true) (rest : List Char) :
    readItems item closing n (gap ++ (text x ++
      ((xs.map text).flatMap (layout.between level ++ ·) ++ (last ++ closing :: rest)))) =
        .ok (x :: xs, rest) := by
  induction xs generalizing x n gap with
  | nil =>
    obtain ⟨n, rfl⟩ : ∃ k, n = k + 1 := ⟨n - 1, by omega⟩
    have hx := h x List.mem_cons_self
    have hseparator : readSeparator closing (last ++ closing :: rest) = .ok (false, rest) := by
      rw [readSeparator, skipGap_append hlast, skipGap_cons hclosing]
      simp [hcomma]
    rw [readItems, hx.skipGap_eq hgap, hx.item_eq]
    simp only [List.map_nil, List.flatMap_nil, List.nil_append, bind, Except.bind, hseparator]
    rfl
  | cons y xs ih =>
    obtain ⟨n, rfl⟩ : ∃ k, n = k + 1 := ⟨n - 1, by omega⟩
    obtain ⟨hx, hxs⟩ := List.forall_mem_cons.1 h
    have hseparator : ∀ cs, readSeparator closing (',' :: cs) = .ok (true, cs) := fun cs => rfl
    have hrest := ih hxs (Nat.lt_of_succ_lt_succ hn) _ (layout.isGap_gap level)
    rw [readItems, hx.skipGap_eq hgap, hx.item_eq]
    simp only [List.map_cons, List.flatMap_cons, layout.between_eq, List.cons_append,
      List.append_assoc, bind, Except.bind, hseparator, if_true] at hrest ⊢
    rw [hrest]
    rfl

/-- A container is read from behind the mark that opens it. -/
lemma exists_readContainer (layout : Layout) (level : Nat) (opening : Char)
    (hclosing : isGap closing = false) (hcomma : closing ≠ ',') {xs : List α}
    (h : ∀ x ∈ xs, Reads item closing (text x) x) {n : Nat} (hn : xs.length ≤ n) :
    ∃ body, layout.container level opening closing (xs.map text) = opening :: body ∧
      ∀ rest, readContainer item closing n (body ++ rest) = .ok (xs, rest) := by
  cases xs with
  | nil =>
    refine ⟨[closing], rfl, fun rest => ?_⟩
    rw [readContainer, List.singleton_append, skipGap_cons hclosing]
    simp
  | cons x xs =>
    refine ⟨_, rfl, fun rest => ?_⟩
    have hx := h x List.mem_cons_self
    obtain ⟨c, cs, htext, -, hc⟩ := hx.starts
    have hitems := readItems_written layout (level + 1) hclosing hcomma
      (layout.isGap_start level) h hn [] (by simp) rest
    rw [List.nil_append] at hitems
    simp only [List.append_assoc, List.singleton_append]
    rw [readContainer, hx.skipGap_eq (layout.isGap_start (level + 1))]
    rw [htext, List.cons_append] at hitems ⊢
    simp only [beq_iff_eq, hc, if_false]
    exact hitems

end Containers

/-! ## Values -/

/-- A value without numbers, whose objects do not name two members alike. -/
inductive IsPlain : Json → Prop
  | null : IsPlain null
  | bool (b : Bool) : IsPlain (bool b)
  | string (s : String) : IsPlain (string s)
  | array {xs : List Json} (h : ∀ x ∈ xs, IsPlain x) : IsPlain (array xs)
  | object {ms : List (String × Json)} (hnames : (ms.map Prod.fst).Nodup)
      (h : ∀ m ∈ ms, IsPlain m.2) : IsPlain (object ms)

/-- How a member of an object is written. -/
def writtenMember (layout : Layout) (level : Nat) (m : String × Json) : List Char :=
  writtenString m.1 ++ ':' :: ' ' :: written layout level m.2

/-- An array is the container of its items. -/
lemma written_array (layout : Layout) (level : Nat) (xs : List Json) :
    written layout level (array xs) =
      layout.container level '[' ']' (xs.map (written layout (level + 1))) := by
  have hitems : ∀ xs, writtenItems layout (level + 1) xs =
      (xs.map (written layout (level + 1))).flatMap (layout.between (level + 1) ++ ·) := by
    intro xs
    induction xs with
    | nil => rfl
    | cons x xs ih => rw [writtenItems, ih, List.map_cons, List.flatMap_cons, List.append_assoc]
  cases xs with
  | nil => rfl
  | cons x xs => rw [written, hitems, List.map_cons, Layout.container]

/-- An object is the container of its members. -/
lemma written_object (layout : Layout) (level : Nat) (ms : List (String × Json)) :
    written layout level (object ms) =
      layout.container level '\x7b' '\x7d' (ms.map (writtenMember layout (level + 1))) := by
  have hmembers : ∀ ms, writtenMembers layout (level + 1) ms =
      (ms.map (writtenMember layout (level + 1))).flatMap (layout.between (level + 1) ++ ·) := by
    intro ms
    induction ms with
    | nil => rfl
    | cons m ms ih =>
      simp only [writtenMembers, ih, List.map_cons, List.flatMap_cons, writtenMember,
        List.append_assoc]
  cases ms with
  | nil => rfl
  | cons m ms => rw [written, hmembers, List.map_cons, writtenMember, Layout.container]

/-- A value starts with neither a gap nor the mark that closes an array. -/
lemma exists_written_eq_cons {j : Json} (hj : IsPlain j) (layout : Layout) (level : Nat) :
    ∃ c cs, written layout level j = c :: cs ∧ isGap c = false ∧ c ≠ ']' := by
  cases hj with
  | null => exact ⟨'n', "ull".toList, rfl, by decide, by decide⟩
  | bool b =>
    cases b with
    | false => exact ⟨'f', "alse".toList, rfl, by decide, by decide⟩
    | true => exact ⟨'t', "rue".toList, rfl, by decide, by decide⟩
  | string s => exact ⟨'\x22', _, rfl, by decide, by decide⟩
  | @array xs h =>
    rw [written_array]
    cases xs <;> exact ⟨'[', _, rfl, by decide, by decide⟩
  | @object ms hnames h =>
    rw [written_object]
    cases ms <;> exact ⟨'\x7b', _, rfl, by decide, by decide⟩

/-- A member is read back when its value is. -/
lemma reads_writtenMember {layout : Layout} {level n : Nat} {m : String × Json}
    (hm : IsPlain m.2)
    (h : ∀ rest, readValue n (written layout level m.2 ++ rest) = .ok (m.2, rest)) :
    Reads (readMember (readValue n)) '\x7d' (writtenMember layout level m) m where
  item_eq rest := by
    obtain ⟨c, cs, hvalue, hc, -⟩ := exists_written_eq_cons hm layout level
    have hgap : skipGap (' ' :: (written layout level m.2 ++ rest)) =
        written layout level m.2 ++ rest := by
      rw [hvalue, List.cons_append]
      exact skipGap_cons hc _
    simp only [writtenMember, writtenString, List.cons_append, List.append_assoc, List.nil_append,
      readMember, readString_written, bind, Except.bind,
      skipGap_cons (show isGap ':' = false by decide), hgap, h]
    rfl
  starts := ⟨'\x22', _, rfl, by decide, by decide⟩

/-- Written values are read back, in every layout and at every level, whatever follows. -/
lemma readValue_written {j : Json} (hj : IsPlain j) (layout : Layout) (level : Nat) {n : Nat}
    (hn : (written layout level j).length < n) (rest : List Char) :
    readValue n (written layout level j ++ rest) = .ok (j, rest) := by
  -- the bound goes down with the depth of the value: the texts of items are shorter
  induction n generalizing j level rest with
  | zero => exact absurd hn (Nat.not_lt_zero _)
  | succ n ih =>
    cases hj with
    | null => rfl
    | bool b => cases b <;> rfl
    | string s =>
      simp only [written, writtenString, List.cons_append, List.append_assoc, List.nil_append,
        readValue, readString_written]
      rfl
    | @array xs h =>
      rw [written_array] at hn ⊢
      obtain ⟨hitems, hcount⟩ := layout.length_container level '[' ']'
        (xs.map (written layout (level + 1)))
      have hreads : ∀ x ∈ xs, Reads (readValue n) ']' (written layout (level + 1) x) x := by
        intro x hx
        have hlength := hitems _ (List.mem_map_of_mem hx)
        exact ⟨ih (h x hx) (level + 1) (by omega),
          exists_written_eq_cons (h x hx) layout (level + 1)⟩
      rw [List.length_map] at hcount
      obtain ⟨body, hbody, hread⟩ := exists_readContainer layout level '[' (by decide) (by decide)
        hreads (by omega : xs.length ≤ n)
      rw [hbody, List.cons_append]
      simp only [readValue, hread]
      rfl
    | @object ms hnames h =>
      rw [written_object] at hn ⊢
      obtain ⟨hmembers, hcount⟩ := layout.length_container level '\x7b' '\x7d'
        (ms.map (writtenMember layout (level + 1)))
      have hreads : ∀ m ∈ ms,
          Reads (readMember (readValue n)) '\x7d' (writtenMember layout (level + 1) m) m := by
        intro m hm
        have hlength := hmembers _ (List.mem_map_of_mem hm)
        have hvalue : (written layout (level + 1) m.2).length ≤
            (writtenMember layout (level + 1) m).length := by
          simp only [writtenMember, List.length_append, List.length_cons]
          omega
        exact reads_writtenMember (h m hm) (ih (h m hm) (level + 1) (by omega))
      rw [List.length_map] at hcount
      obtain ⟨body, hbody, hread⟩ := exists_readContainer layout level '\x7b' (by decide)
        (by decide) hreads (by omega : ms.length ≤ n)
      rw [hbody, List.cons_append]
      simp only [readValue, hread, Except.map, ofMembers, Table.entries_ofList hnames]

/-- **Written texts are read back.** A value without numbers, whose objects do not name two members
alike, is read from the text that it is written as, on one line and over several lines. -/
theorem read_written {j : Json} (hj : IsPlain j) (layout : Layout) :
    read (String.ofList (written layout 0 j)) = .ok j := by
  obtain ⟨c, cs, hcs, hc, -⟩ := exists_written_eq_cons hj layout 0
  have hvalue := readValue_written hj layout 0 (Nat.lt_succ_self _) []
  rw [List.append_nil, hcs] at hvalue
  simp only [read, String.toList_ofList, hcs, skipGap_cons hc, hvalue]
  rfl

/-! ## Written characters -/

/-- A printable ASCII character or a line end. -/
def IsInk (c : Char) : Prop := c = '\n' ∨ 0x20 ≤ c.toNat ∧ c.toNat < 0x7f

instance (c : Char) : Decidable (IsInk c) :=
  inferInstanceAs (Decidable (c = '\n' ∨ 0x20 ≤ c.toNat ∧ c.toNat < 0x7f))

/-- Where a test finds each character printable, it is. -/
lemma isInk_of_all (cs : List Char) (h : (cs.all fun c => decide (IsInk c)) = true) :
    ∀ c ∈ cs, IsInk c :=
  fun c hc => of_decide_eq_true (List.all_eq_true.1 h c hc)

/-- An escaped unit is printable. -/
lemma isInk_of_mem_unitEscape {n : Nat} (hn : n < 0x10000) : ∀ c ∈ unitEscape n, IsInk c := by
  have hdigit : ∀ k < 16, 0x20 ≤ (Nat.digitChar k).toNat ∧ (Nat.digitChar k).toNat < 0x7f := by
    decide
  rw [unitEscape, hexDigits_four hn]
  simp only [List.forall_mem_cons]
  refine ⟨by decide, by decide, Or.inr (hdigit _ (by omega)),
    Or.inr (hdigit _ (by omega)), Or.inr (hdigit _ (by omega)), Or.inr (hdigit _ (by omega)), ?_⟩
  simp

/-- What a character is written as is printable. -/
lemma IsWrittenAs.isInk {c : Char} {t : List Char} (h : IsWrittenAs c t) : ∀ d ∈ t, IsInk d := by
  have hmax : c.toNat < 0x110000 := by
    have hvalid : c.toNat < 0xd800 ∨ 0xdfff < c.toNat ∧ c.toNat < 0x110000 := c.valid
    omega
  cases h with
  | @escape e hne he =>
    have hletter : IsInk e := by
      unfold escapeOf? at he
      split at he
      case h_9 => cases he
      all_goals decide
    simp only [List.forall_mem_cons]
    exact ⟨by decide, hletter, by simp⟩
  | plain hlow hhigh hmark hback =>
    intro d hd
    rw [List.mem_singleton.1 hd]
    exact Or.inr ⟨hlow, hhigh⟩
  | unit hc => exact isInk_of_mem_unitEscape hc
  | pair hc =>
    intro d hd
    rcases List.mem_append.1 hd with hd | hd
    · exact isInk_of_mem_unitEscape (by omega) d hd
    · exact isInk_of_mem_unitEscape (by omega) d hd

/-- A written string is printable. -/
lemma isInk_of_mem_writtenString (s : String) : ∀ d ∈ writtenString s, IsInk d := by
  intro d hd
  simp only [writtenString, List.mem_cons, List.mem_append, List.mem_flatMap, List.not_mem_nil,
    or_false] at hd
  rcases hd with rfl | ⟨c, -, hd⟩ | rfl
  · decide
  · exact (isWrittenAs c).isInk d hd
  · decide

/-- Where the texts of items are printable, apart from line ends, so is the container. -/
lemma Layout.isInk_of_mem_container {layout : Layout} {level : Nat} {opening closing : Char}
    (hopening : IsInk opening) (hclosing : IsInk closing) {ts : List (List Char)}
    (h : ∀ t ∈ ts, ∀ d ∈ t, IsInk d) : ∀ d ∈ layout.container level opening closing ts, IsInk d := by
  have hline : ∀ level, ∀ d ∈ Layout.newLine level, IsInk d := by
    intro level d hd
    rcases List.mem_cons.1 hd with rfl | hd
    · exact Or.inl rfl
    · rw [List.eq_of_mem_replicate hd]
      decide
  have hstart : ∀ level, ∀ d ∈ layout.start level, IsInk d := by
    cases layout with
    | line => simp [start]
    | indented => exact hline
  have hbetween : ∀ level, ∀ d ∈ layout.between level, IsInk d := by
    intro level d hd
    rw [between_eq] at hd
    rcases List.mem_cons.1 hd with rfl | hd
    · decide
    · cases layout with
      | line =>
        rw [List.mem_singleton.1 hd]
        decide
      | indented => exact hline level d hd
  intro d hd
  cases ts with
  | nil =>
    simp only [container, List.mem_cons, List.not_mem_nil, or_false] at hd
    rcases hd with rfl | rfl
    · exact hopening
    · exact hclosing
  | cons t ts =>
    obtain ⟨ht, hts⟩ := List.forall_mem_cons.1 h
    simp only [container, List.mem_cons, List.mem_append, List.mem_flatMap, List.not_mem_nil,
      or_false] at hd
    rcases hd with rfl | (hd | hd) | ⟨u, hu, hd | hd⟩ | hd | rfl
    · exact hopening
    · exact hstart _ d hd
    · exact ht d hd
    · exact hbetween _ d hd
    · exact hts u hu d hd
    · exact hstart _ d hd
    · exact hclosing

/-- Written values consist of printable ASCII characters and line ends. -/
lemma isInk_of_mem_written {j : Json} (hj : IsPlain j) (layout : Layout) (level : Nat) :
    ∀ d ∈ written layout level j, IsInk d := by
  induction hj generalizing level with
  | null => exact isInk_of_all "null".toList (by decide)
  | bool b =>
    cases b with
    | false => exact isInk_of_all "false".toList (by decide)
    | true => exact isInk_of_all "true".toList (by decide)
  | string s => exact isInk_of_mem_writtenString s
  | @array xs h ih =>
    rw [written_array]
    refine Layout.isInk_of_mem_container (by decide) (by decide) ?_
    rw [List.forall_mem_map]
    exact fun x hx => ih x hx (level + 1)
  | @object ms hnames h ih =>
    rw [written_object]
    refine Layout.isInk_of_mem_container (by decide) (by decide) ?_
    rw [List.forall_mem_map]
    intro m hm d hd
    simp only [writtenMember, List.mem_append, List.mem_cons] at hd
    rcases hd with hd | rfl | rfl | hd
    · exact isInk_of_mem_writtenString m.1 d hd
    · decide
    · decide
    · exact ih m hm (level + 1) d hd

end Json

end RouteAssets
