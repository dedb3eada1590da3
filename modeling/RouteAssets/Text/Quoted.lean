import RouteAssets.Text.Printable

/-!
# Quoted text

How a text is shown inside a larger display: between single quotation marks, or between double ones
when it holds a single one and no double one. Backslashes and the mark itself are escaped, and so is
every character that is not printable, by its name or its code point in two, four or eight digits.
-/

namespace RouteAssets.Text

/-- A number in hexadecimal with at least `width` digits. -/
def hexDigits (width n : Nat) : List Char :=
  let ds := Nat.toDigits 16 n
  List.replicate (width - ds.length) '0' ++ ds

/-- How one character is shown between marks. -/
def quotedChar (mark c : Char) : List Char :=
  if c == mark || c == '\\' then ['\\', c]
  else if c == '\n' then ['\\', 'n']
  else if c == '\r' then ['\\', 'r']
  else if c == '\t' then ['\\', 't']
  else if isPrintable c then [c]
  else
    let n := c.toNat
    if n < 0x100 then '\\' :: 'x' :: hexDigits 2 n
    else if n < 0x10000 then '\\' :: 'u' :: hexDigits 4 n
    else '\\' :: 'U' :: hexDigits 8 n

/-- The mark a text is put between. -/
def markFor (cs : List Char) : Char :=
  if cs.contains '\x27' && !cs.contains '\x22' then '\x22' else '\x27'

/-- A text between quotation marks. -/
def quoted (s : String) : String :=
  let cs := s.toList
  let mark := markFor cs
  String.ofList (mark :: (cs.flatMap (quotedChar mark) ++ [mark]))

end RouteAssets.Text
