import RouteAssets.Text.Blank
import RouteAssets.Text.WordChar
import Mathlib.Data.List.TakeWhile
import Mathlib.Tactic.Lemma

/-!
# Runs of characters

A text that is read run by run, each of characters of one kind, is cut where the next character is of
another kind (`takeWhile_run`, `dropWhile_run`, `eq_false_of_dropWhile`). The blanks are one kind; they
are few enough to be listed (`toNat_mem_blankCodes`), and none of them belongs to a word
(`isWord_of_isBlank`).
-/

namespace RouteAssets.Text

/-! ## Cutting off runs -/

section Runs

variable {p : Char → Bool} {run rest : List Char} {c : Char}

/-- A run of characters ends where the next character is of another kind. -/
lemma takeWhile_run (hrun : ∀ d ∈ run, p d = true) (hc : p c = false) :
    (run ++ c :: rest).takeWhile p = run := by
  rw [List.takeWhile_append_of_pos hrun, List.takeWhile_cons_of_neg (by simp [hc]), List.append_nil]

/-- What is behind a run of characters begins with a character of another kind. -/
lemma dropWhile_run (hrun : ∀ d ∈ run, p d = true) (hc : p c = false) :
    (run ++ c :: rest).dropWhile p = c :: rest := by
  rw [List.dropWhile_append_of_pos hrun, List.dropWhile_cons_of_neg (by simp [hc])]

/-- A text is its first run of characters and what is behind it. -/
lemma exists_eq_run_append (p : Char → Bool) (cs : List Char) :
    ∃ run, (∀ d ∈ run, p d = true) ∧ cs = run ++ cs.dropWhile p :=
  ⟨cs.takeWhile p, fun _ => List.mem_takeWhile_imp, List.takeWhile_append_dropWhile.symm⟩

/-- The character behind a run is of another kind. -/
lemma eq_false_of_dropWhile {cs : List Char} (h : cs.dropWhile p = c :: rest) : p c = false := by
  have hne : cs.dropWhile p ≠ [] := by simp [h]
  have hhead := List.head_dropWhile_not p hne
  simpa [h] using hhead

end Runs

/-! ## Blanks -/

/-- The code points of the blanks. -/
def blankCodes : List Nat :=
  [0x09, 0x0a, 0x0b, 0x0c, 0x0d, 0x1c, 0x1d, 0x1e, 0x1f, 0x20, 0x85, 0xa0, 0x1680, 0x2000, 0x2001,
    0x2002, 0x2003, 0x2004, 0x2005, 0x2006, 0x2007, 0x2008, 0x2009, 0x200a, 0x2028, 0x2029, 0x202f,
    0x205f, 0x3000]

/-- The blanks are the characters of these code points. -/
lemma toNat_mem_blankCodes {c : Char} (h : isBlank c = true) : c.toNat ∈ blankCodes := by
  simp only [isBlank, Bool.or_eq_true, Bool.and_eq_true, decide_eq_true_eq, beq_iff_eq] at h
  simp only [blankCodes, List.mem_cons, List.not_mem_nil, or_false]
  omega

/-- No blank belongs to a word. -/
lemma isWord_of_isBlank {c : Char} (h : isBlank c = true) : isWord c = false := by
  have hall : ∀ n ∈ blankCodes, isWord (Char.ofNat n) = false := by decide +kernel
  have hc := hall c.toNat (toNat_mem_blankCodes h)
  rwa [Char.ofNat_toNat] at hc

end RouteAssets.Text
