import RouteAssets.Json.Value

/-!
# Writing JSON

The written text is ASCII: every other character is escaped by its UTF-16 units. A value is laid out
on one line, with a blank after every comma and colon, or over several lines, with one item or
member to a line and each level indented by two further blanks. Empty containers stay on one line.
-/

namespace RouteAssets.Json

open RouteAssets.Text

/-! ## Strings -/

/-- The escape of a UTF-16 unit. -/
def unitEscape (n : Nat) : List Char := '\\' :: 'u' :: hexDigits 4 n

/-- How a character is written inside a string. -/
def writtenChar (c : Char) : List Char :=
  match c with
  | '\x22' => ['\\', '\x22']
  | '\\' => ['\\', '\\']
  | '\n' => ['\\', 'n']
  | '\r' => ['\\', 'r']
  | '\t' => ['\\', 't']
  | '\x0c' => ['\\', 'f']
  | '\x08' => ['\\', 'b']
  | c =>
    let n := c.toNat
    if 0x20 ≤ n && n < 0x7f then [c]
    else if n < 0x10000 then unitEscape n
    else
      unitEscape (0xd800 + (n - 0x10000) / 0x400) ++ unitEscape (0xdc00 + (n - 0x10000) % 0x400)

/-- A string with its marks. -/
def writtenString (s : String) : List Char := '\x22' :: (s.toList.flatMap writtenChar ++ ['\x22'])

/-! ## Numbers -/

/-- A number. The three values without digits are words. -/
def writtenNumber : Number → List Char
  | .real .nan => "NaN".toList
  | .real (.infinite false) => "Infinity".toList
  | .real (.infinite true) => "-Infinity".toList
  | n => n.text.toList

/-! ## Layouts -/

/-- How containers are laid out: on one line, or indented. -/
inductive Layout where
  | line
  | indented
  deriving DecidableEq, Repr

namespace Layout

/-- A line end and the indentation of a level. -/
def newLine (level : Nat) : List Char := '\n' :: List.replicate (2 * level) ' '

/-- What stands in front of the first item at a level. -/
def start (layout : Layout) (level : Nat) : List Char :=
  match layout with
  | line => []
  | indented => newLine level

/-- What stands between two items at a level. -/
def between (layout : Layout) (level : Nat) : List Char :=
  match layout with
  | line => [',', ' ']
  | indented => ',' :: newLine level

end Layout

mutual

/-- A value at a level of nesting. -/
def written (layout : Layout) (level : Nat) : Json → List Char
  | null => "null".toList
  | bool true => "true".toList
  | bool false => "false".toList
  | number n => writtenNumber n
  | string s => writtenString s
  | array [] => ['[', ']']
  | array (x :: xs) =>
    '[' :: (layout.start (level + 1) ++ written layout (level + 1) x ++
      (writtenItems layout (level + 1) xs ++ (layout.start level ++ [']'])))
  | object [] => ['\x7b', '\x7d']
  | object ((name, x) :: ms) =>
    '\x7b' :: (layout.start (level + 1) ++
      (writtenString name ++ ':' :: ' ' :: written layout (level + 1) x) ++
      (writtenMembers layout (level + 1) ms ++ (layout.start level ++ ['\x7d'])))

/-- Items that follow another one. -/
def writtenItems (layout : Layout) (level : Nat) : List Json → List Char
  | [] => []
  | x :: xs => layout.between level ++ (written layout level x ++ writtenItems layout level xs)

/-- Members that follow another one. -/
def writtenMembers (layout : Layout) (level : Nat) : List (String × Json) → List Char
  | [] => []
  | (name, x) :: ms =>
    layout.between level ++ ((writtenString name ++ ':' :: ' ' :: written layout level x) ++
      writtenMembers layout level ms)

end

/-- A value on one line. -/
def compact (j : Json) : String := String.ofList (j.written .line 0)

/-- A value over several lines. -/
def pretty (j : Json) : String := String.ofList (j.written .indented 0)

end RouteAssets.Json
