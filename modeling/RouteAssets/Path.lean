import RouteAssets.Text.Search

/-!
# Paths

A path is an anchor and a list of names. Empty names and the name `.` never occur in one, the name
`..` may: only `Path.normalize` takes it away. Two slashes at the front are an anchor of their own,
three or more count as one. Joining an absolute path to another discards the other.
-/

namespace RouteAssets

open RouteAssets.Text

/-- How a path starts. -/
inductive Anchor where
  | relative
  | root
  | doubleRoot
  deriving DecidableEq, Repr

/-- A path: its anchor and its names from the outside in. -/
structure Path where
  anchor : Anchor
  names : List String
  deriving DecidableEq, Repr

namespace Path

/-! ## Reading and writing -/

/-- The anchor of a text. -/
def anchorOf (cs : List Char) : Anchor :=
  match cs with
  | '/' :: '/' :: '/' :: _ => .root
  | '/' :: '/' :: _ => .doubleRoot
  | '/' :: _ => .root
  | _ => .relative

/-- The names in a text: the pieces between slashes that are neither empty nor a single dot. -/
def namesOf (cs : List Char) : List String :=
  ((splitOnChar '/' cs).filter fun p => p != [] && p != ['.']).map String.ofList

/-- The path a text denotes. -/
def ofString (s : String) : Path := ⟨anchorOf s.toList, namesOf s.toList⟩

/-- The text in front of the names. -/
def Anchor.text : Anchor → String
  | .relative => ""
  | .root => "/"
  | .doubleRoot => "//"

/-- The text of a path. The relative path without names is a dot. -/
def toString (p : Path) : String :=
  if p.anchor == .relative && p.names.isEmpty then "."
  else Anchor.text p.anchor ++ joinWith "/" p.names

instance : ToString Path := ⟨toString⟩

/-! ## Parts -/

/-- Does the path start at a root? -/
def isAbsolute (p : Path) : Bool := p.anchor != .relative

/-- The last name, empty when there is none. -/
def name (p : Path) : String := p.names.getLast?.getD ""

/-- The path without its last name. -/
def parent (p : Path) : Path := { p with names := p.names.dropLast }

/-- The last dot of a name and what follows it. A dot at either end of the name does not count. -/
def suffixOf (name : String) : String :=
  let tail := name.toList.reverse.takeWhile (· != '.')
  let extent := tail.length
  if extent == 0 || name.length ≤ extent + 1 then ""
  else String.ofList ('.' :: tail.reverse)

/-- The extension of the last name, with its dot. -/
def suffix (p : Path) : String := suffixOf p.name

/-! ## Building -/

/-- One path below another; an absolute path stands for itself. -/
def join (p q : Path) : Path :=
  if q.isAbsolute then q else { p with names := p.names ++ q.names }

instance : Div Path := ⟨join⟩

/-- A path below another, given as text. -/
def joinText (p : Path) (s : String) : Path := p.join (ofString s)

/-- The path below `base` unless it is absolute already. -/
def under (base : Path) (s : String) : Path := base.join (ofString s)

/-- The path with another last name. There is none for a path without a name, and none whose new
name would not be a single name. -/
def withName? (p : Path) (new : String) : Option Path :=
  if p.name == "" || new == "" || new == "." || new.toList.contains '/' then none
  else some { p with names := p.names.dropLast ++ [new] }

/-- Folds one name into a normalised list of names, kept last name first. A parent name removes the
name before it; with nothing to remove it stays in a relative path and vanishes in an absolute
one. -/
def foldName (absolute : Bool) (acc : List String) (n : String) : List String :=
  if n == ".." then
    match acc with
    | [] => if absolute then [] else [n]
    | m :: ms => if m == ".." then n :: m :: ms else ms
  else n :: acc

/-- The path without parent names, as far as its text tells. -/
def normalize (p : Path) : Path :=
  { p with names := (p.names.foldl (foldName p.isAbsolute) []).reverse }

/-- The absolute path without parent names that a path denotes in a working directory, when there
are no links. The double slash anchor becomes a single one. -/
def resolve (cwd p : Path) : Path :=
  { (cwd.join p).normalize with anchor := .root }

end Path

end RouteAssets
