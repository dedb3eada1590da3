import RouteAssets.Table
import RouteAssets.Text.Search

/-!
# Command line arguments

The command takes the root of a project and some options. An option may be abbreviated as long as no
other option starts with the same letters, and its value is the next argument or stands behind an
equals sign. What starts with a dash is an option unless it is a dash alone, a number, or holds a
space; behind a double dash nothing is an option.
-/

namespace RouteAssets.Command

open RouteAssets.Text

/-- The options of the command. -/
inductive Switch where
  | help
  | config
  | bundle
  | outDirectory
  | verbose
  | watch
  deriving DecidableEq, Repr

/-- The names of the options. -/
def Switch.names : List (String × Switch) :=
  [("-h", .help), ("--help", .help), ("--config", .config), ("--bundle", .bundle),
    ("--out-dir", .outDirectory), ("--verbose", .verbose), ("--watch", .watch)]

/-- Does an option take a value? -/
def Switch.takesValue : Switch → Bool
  | config => true
  | bundle => true
  | outDirectory => true
  | _ => false

/-- What an argument looks like: a plain text, the double dash, an option with the value behind its
equals sign, or an option that is not known. -/
inductive Word where
  | plain (s : String)
  | doubleDash
  | switch (s : Switch) (value : Option String)
  | unknown (s : String)
  deriving DecidableEq, Repr

/-- Is it a number with a minus sign? -/
def isNegativeNumber (s : String) : Bool :=
  match s.toList with
  | '-' :: cs =>
    match splitOnChar '.' cs with
    | [whole] => !whole.isEmpty && whole.all Char.isDigit
    | [whole, fraction] => whole.all Char.isDigit && !fraction.isEmpty && fraction.all Char.isDigit
    | _ => false
  | _ => false

/-- A text in front of its first equals sign, and what stands behind it if there is one. -/
def splitAtEquals (s : String) : String × Option String :=
  match splitAtFirst ['='] s.toList with
  | some (before, after) => (String.ofList before, some (String.ofList after))
  | none => (s, none)

/-- What an argument looks like in front of the double dash; none for an option whose abbreviation is
ambiguous. -/
def wordOf? (s : String) : Option Word :=
  let (name, value) := splitAtEquals s
  if s == "-" || !startsWith s "-" then some (.plain s)
  else if let some found := Table.lookup s Switch.names then some (.switch found none)
  else if let some found := Table.lookup name Switch.names then some (.switch found value)
  else
    let isLong := startsWith s "--"
    match Switch.names.filter fun e => isLong && startsWith e.1 name with
    | [(_, found)] => some (.switch found value)
    | _ :: _ => none
    | [] =>
      if startsWith s "-h" && !isLong then some (.switch .help (some (dropFirst 2 s)))
      else if isNegativeNumber s || contains s " " then some (.plain s)
      else some (.unknown s)

/-- What the arguments look like; none when an abbreviation is ambiguous. -/
def wordsOf? : List String → Option (List Word)
  | [] => some []
  | s :: rest =>
    if s == "--" then some (.doubleDash :: rest.map .plain)
    else do
      let w ← wordOf? s
      return w :: (← wordsOf? rest)

/-- The arguments of the command. -/
structure Arguments where
  root : String
  config : Option String
  bundle : Option String
  outDirectory : Option String
  isVerbose : Bool
  isWatching : Bool
  deriving DecidableEq, Repr

/-- What the arguments ask for: help, something that cannot be understood, or a build. -/
inductive Request where
  | help
  | misuse
  | build (a : Arguments)
  deriving DecidableEq, Repr

/-- The arguments read so far. Superfluous arguments are counted, for help may still be asked for. -/
structure Gathered where
  root : Option String
  options : Arguments
  hasExtras : Bool
  deriving DecidableEq, Repr

/-- The options with a value written to one of them. -/
def setValue (a : Arguments) (s : Switch) (value : String) : Arguments :=
  match s with
  | .config => { a with config := some value }
  | .bundle => { a with bundle := some value }
  | .outDirectory => { a with outDirectory := some value }
  | _ => a

/-- The options with one of them set. -/
def setFlag (a : Arguments) (s : Switch) : Arguments :=
  match s with
  | .verbose => { a with isVerbose := true }
  | .watch => { a with isWatching := true }
  | _ => a

/-- Does the value behind `-h` consist of further letters for help? -/
def repeatsHelp (value : String) : Bool := value != "" && value.toList.all (· == 'h')

/-- Reads the words of the command line from left to right. The double dash belongs to the text in
front of it or behind it that names the root. -/
def gather (g : Gathered) : List Word → Request
  | [] =>
    match g.root with
    | some root => if g.hasExtras then .misuse else .build { g.options with root }
    | none => .misuse
  | .plain s :: ws =>
    match g.root, ws with
    | none, .doubleDash :: ws => gather { g with root := some s } ws
    | none, ws => gather { g with root := some s } ws
    | some _, ws => gather { g with hasExtras := true } ws
  | .doubleDash :: ws => gather { g with hasExtras := g.hasExtras || g.root.isSome } ws
  | .unknown _ :: ws => gather { g with hasExtras := true } ws
  | .switch .help none :: _ => .help
  | .switch .help (some value) :: _ => if repeatsHelp value then .help else .misuse
  | .switch s value :: ws =>
    if s.takesValue then
      match value, ws with
      | some value, ws => gather { g with options := setValue g.options s value } ws
      | none, .plain value :: ws => gather { g with options := setValue g.options s value } ws
      | none, _ => .misuse
    else
      match value with
      | some _ => .misuse
      | none => gather { g with options := setFlag g.options s } ws

/-- What the command line asks for. -/
def Request.ofArguments (args : List String) : Request :=
  let none : Arguments :=
    { root := "", config := .none, bundle := .none, outDirectory := .none, isVerbose := false,
      isWatching := false }
  match wordsOf? args with
  | some words => gather { root := .none, options := none, hasExtras := false } words
  | .none => .misuse

end RouteAssets.Command
