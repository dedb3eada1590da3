/-!
# Blank characters

Two classes of blank characters are in use. Prose and configuration texts follow the Unicode
property `White_Space` together with the four ASCII information separators; scripts additionally
skip the zero-width space, the word joiner and the byte order mark, and do not skip the separators.
-/

namespace RouteAssets.Text

/-- Unicode white space and the ASCII information separators U+001C to U+001F. -/
def isBlank (c : Char) : Bool :=
  let n := c.toNat
  (0x09 ≤ n && n ≤ 0x0d) || (0x1c ≤ n && n ≤ 0x20) || n == 0x85 || n == 0xa0 || n == 0x1680 ||
    (0x2000 ≤ n && n ≤ 0x200a) || n == 0x2028 || n == 0x2029 || n == 0x202f || n == 0x205f ||
    n == 0x3000

/-- What a script may hold between two tokens, comments apart. -/
def isScriptBlank (c : Char) : Bool :=
  let n := c.toNat
  (0x09 ≤ n && n ≤ 0x0d) || n == 0x20 || n == 0xa0 || n == 0x1680 ||
    (0x2000 ≤ n && n ≤ 0x200b) || n == 0x2028 || n == 0x2029 || n == 0x202f || n == 0x205f ||
    n == 0x2060 || n == 0x3000 || n == 0xfeff

/-- The characters that end a line inside a script. -/
def isLineEnd (c : Char) : Bool :=
  c == '\n' || c == '\u2028' || c == '\u2029'

/-- Everything core calls white space is blank. -/
theorem isBlank_of_isWhitespace {c : Char} (h : c.isWhitespace = true) : isBlank c = true := by
  simp only [Char.isWhitespace, Bool.or_eq_true, decide_eq_true_eq] at h
  rcases h with ((rfl | rfl) | rfl) | rfl <;> decide

end RouteAssets.Text
