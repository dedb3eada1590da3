import RouteAssets.Script.Dialect
import RouteAssets.Text.Blank
import RouteAssets.Text.Search
import RouteAssets.Text.WordChar
import RouteAssets.Path

/-!
# Scripts inside single-file components

A component holds any number of script blocks. A block is an opening tag whose quoted attribute
values may contain any character, and a body that runs to the first closing tag. Tag names are
compared without regard to case, including the three letters outside ASCII that fold to letters of
the name. The language is taken from the first block that has a `lang` attribute; the attribute is
recognised at a word boundary, in lower case only.
-/

namespace RouteAssets.Script

open RouteAssets.Text

/-- What a file holds, by its extension. -/
inductive FileKind where
  | script (dialect : Dialect)
  | component
  deriving DecidableEq, Repr

/-- The kind of file with the given extension. -/
def FileKind.ofExtension? (ext : String) : Option FileKind :=
  if ext == ".vue" then some .component
  else if [".js", ".mjs", ".cjs", ".jsx"].contains ext then some (.script .javascript)
  else if [".ts", ".mts", ".cts"].contains ext then some (.script .typescript)
  else if ext == ".tsx" then some (.script .tsx)
  else none

/-- The kind of file a path names. A query and the case of the extension are ignored. -/
def FileKind.ofPath? (path : String) : Option FileKind :=
  FileKind.ofExtension? (lower (Path.ofString (upTo '?' path)).suffix)

/-- The name under which a kind of file is reported. -/
def FileKind.name : FileKind → String
  | script d => d.name
  | component => "vue"

namespace Component

/-! ## Tags -/

/-- Does a character equal a lower-case letter of the tag name when case is folded? -/
def matchesLetter (letter c : Char) : Bool :=
  c.toLower == letter || (letter == 's' && c == '\u017f') ||
    (letter == 'i' && (c == '\u0130' || c == '\u0131'))

/-- The text after a word that is compared without regard to case. -/
def afterFolded : List Char → List Char → Option (List Char)
  | [], cs => some cs
  | _ :: _, [] => none
  | l :: ls, c :: cs => if matchesLetter l c then afterFolded ls cs else none

/-- The text after the name of an opening tag; the name must end there. -/
def afterOpening (cs : List Char) : Option (List Char) :=
  match afterFolded "<script".toList cs with
  | some rest => if rest.head?.any isWord then none else some rest
  | none => none

/-- The text after a closing tag. -/
def afterClosing (cs : List Char) : Option (List Char) :=
  match afterFolded "</script".toList cs with
  | some rest =>
    match rest.dropWhile isBlank with
    | '>' :: r => some r
    | _ => none
  | none => none

/-- The attributes of an opening tag and the text after it. The first argument is the mark of the
quoted value the scan is inside of. -/
def splitAttributes : Option Char → List Char → Option (List Char × List Char)
  | _, [] => none
  | none, c :: cs =>
    if c == '>' then some ([], cs)
    else
      let quoted := if c == '\x22' || c == '\x27' then some c else none
      (splitAttributes quoted cs).map fun (attrs, rest) => (c :: attrs, rest)
  | some q, c :: cs =>
    (splitAttributes (if c == q then none else some q) cs).map fun (attrs, rest) => (c :: attrs, rest)

/-- The text up to the first closing tag and the text after that tag. -/
def splitBody : List Char → Option (List Char × List Char)
  | [] => none
  | c :: cs =>
    match afterClosing (c :: cs) with
    | some rest => some ([], rest)
    | none => (splitBody cs).map fun (body, rest) => (c :: body, rest)

/-! ## Blocks -/

/-- A script block: the text of its attributes and its body. -/
structure Block where
  attributes : List Char
  body : List Char
  deriving DecidableEq, Repr

/-- A block at the front of a text, and the text after it. -/
def blockAt? (cs : List Char) : Option (Block × List Char) := do
  let rest ← afterOpening cs
  let (attributes, rest) ← splitAttributes none rest
  let (body, rest) ← splitBody rest
  return ({ attributes, body }, rest)

/-- The blocks of a text in order, found in at most `n` steps of one character or one block. -/
def blocksUpTo : Nat → List Char → List Block
  | 0, _ => []
  | _ + 1, [] => []
  | n + 1, c :: cs =>
    match blockAt? (c :: cs) with
    | some (b, rest) => b :: blocksUpTo n rest
    | none => blocksUpTo n cs

/-- The blocks of a component in order. -/
def blocks (cs : List Char) : List Block := blocksUpTo cs.length cs

/-! ## Language -/

/-- The quoted value after an attribute name: blanks, an equals sign, blanks and a value that is not
empty, between any two quotation marks. -/
def quotedValue? (cs : List Char) : Option (List Char) :=
  match cs.dropWhile isBlank with
  | '=' :: r =>
    match r.dropWhile isBlank with
    | q :: r' =>
      if q == '\x22' || q == '\x27' then
        match r'.span fun c => c != '\x22' && c != '\x27' with
        | ([], _) => none
        | (_, []) => none
        | (value, _ :: _) => some value
      else none
    | [] => none
  | _ => none

/-- The value of the first `lang` attribute; `afterWord` says that the character before the text is
a word character. -/
def langValue? (afterWord : Bool) : List Char → Option (List Char)
  | [] => none
  | c :: cs =>
    let here :=
      if !afterWord && "lang".toList.isPrefixOf (c :: cs) then quotedValue? ((c :: cs).drop 4)
      else none
    match here with
    | some value => some value
    | none => langValue? (isWord c) cs

/-- The dialect that a `lang` value selects. -/
def dialectOfLang (value : List Char) : Dialect :=
  let v := lower (String.ofList value)
  if v == "tsx" then .tsx
  else if v == "ts" || v == "typescript" then .typescript
  else .javascript

/-- The dialect of some blocks: that of the first one with a `lang` attribute. -/
def dialectOf (bs : List Block) : Dialect :=
  match bs.findSome? fun b => langValue? false b.attributes with
  | some value => dialectOfLang value
  | none => .javascript

/-- The bodies of some blocks with a newline between them. -/
def joinBodies : List Block → List Char
  | [] => []
  | [b] => b.body
  | b :: bs => b.body ++ '\n' :: joinBodies bs

/-- The script of a component and its dialect. -/
def script (source : String) : String × Dialect :=
  let bs := blocks source.toList
  (String.ofList (joinBodies bs), dialectOf bs)

end Component

end RouteAssets.Script
