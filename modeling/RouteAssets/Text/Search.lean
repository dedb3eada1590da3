/-!
# Searching and cutting text

Searches that answer by position work on character lists, where they are plain recursions; the
string versions only convert. Letter case is folded for ASCII letters only.
-/

namespace RouteAssets.Text

/-! ## Character lists -/

/-- The first split of a text around an occurrence of `pattern`: what stands before it and what
follows it. -/
def splitAtFirst (pattern : List Char) : List Char → Option (List Char × List Char)
  | [] => if pattern.isEmpty then some ([], []) else none
  | c :: cs =>
    if pattern.isPrefixOf (c :: cs) then some ([], (c :: cs).drop pattern.length)
    else (splitAtFirst pattern cs).map fun (before, after) => (c :: before, after)

/-- Does `pattern` occur in a text? -/
def occursIn (pattern : List Char) : List Char → Bool
  | [] => pattern.isEmpty
  | c :: cs => pattern.isPrefixOf (c :: cs) || occursIn pattern cs

/-- The pieces of a text between the occurrences of a character. -/
def splitOnChar (d : Char) : List Char → List (List Char)
  | [] => [[]]
  | c :: cs =>
    if c == d then [] :: splitOnChar d cs
    else
      match splitOnChar d cs with
      | [] => [[c]]
      | p :: ps => (c :: p) :: ps

/-- The part of a text before the first occurrence of a character, all of it when there is none. -/
def cutAt (d : Char) (cs : List Char) : List Char := cs.takeWhile (· != d)

/-- A text with every occurrence of `pattern` replaced, leftmost first and without overlaps. `skip`
counts the characters that still belong to an occurrence. -/
def replaceFrom (pattern replacement : List Char) : Nat → List Char → List Char
  | _, [] => []
  | skip + 1, _ :: cs => replaceFrom pattern replacement skip cs
  | 0, c :: cs =>
    if pattern.isPrefixOf (c :: cs) then
      replacement ++ replaceFrom pattern replacement (pattern.length - 1) cs
    else c :: replaceFrom pattern replacement 0 cs

/-! ## Strings -/

/-- Does `s` start with `p`? -/
def startsWith (s p : String) : Bool := p.toList.isPrefixOf s.toList

/-- Does `s` end with `p`? -/
def endsWith (s p : String) : Bool := p.toList.isSuffixOf s.toList

/-- Does `p` occur in `s`? -/
def contains (s p : String) : Bool := occursIn p.toList s.toList

/-- The part of a string before the first occurrence of a character. -/
def upTo (d : Char) (s : String) : String := String.ofList (cutAt d s.toList)

/-- The pieces of a string between the occurrences of a character. -/
def pieces (d : Char) (s : String) : List String := (splitOnChar d s.toList).map String.ofList

/-- Strings joined with a separator between them. -/
def joinWith (separator : String) : List String → String
  | [] => ""
  | [s] => s
  | s :: ss => s ++ separator ++ joinWith separator ss

/-- A string without its first `n` characters. -/
def dropFirst (n : Nat) (s : String) : String := String.ofList (s.toList.drop n)

/-- A string without the characters `d` at its end. -/
def trimEnd (d : Char) (s : String) : String :=
  String.ofList (s.toList.reverse.dropWhile (· == d)).reverse

/-- A string without the characters `d` at its start. -/
def trimStart (d : Char) (s : String) : String := String.ofList (s.toList.dropWhile (· == d))

/-- ASCII letters in lower case. -/
def lower (s : String) : String := String.ofList (s.toList.map Char.toLower)

/-! ## Laws -/

theorem splitAtFirst_append {pattern cs before after : List Char}
    (h : splitAtFirst pattern cs = some (before, after)) : cs = before ++ pattern ++ after := by
  induction cs generalizing before with
  | nil =>
    simp only [splitAtFirst] at h
    split at h <;> simp_all
  | cons c cs ih =>
    simp only [splitAtFirst] at h
    split at h
    · rename_i hp
      obtain ⟨rest, hr⟩ := List.isPrefixOf_iff_prefix.1 hp
      simp only [Option.some.injEq, Prod.mk.injEq] at h
      obtain ⟨rfl, rfl⟩ := h
      rw [← hr]
      simp
    · obtain ⟨⟨b, a⟩, hb, he⟩ := Option.map_eq_some_iff.1 h
      simp only [Prod.mk.injEq] at he
      obtain ⟨rfl, rfl⟩ := he
      rw [ih hb]
      simp

end RouteAssets.Text
