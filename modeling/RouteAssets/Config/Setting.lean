import RouteAssets.Config.Time
import RouteAssets.Json.Value

/-!
# Settings

A configuration is a tree of settings. The names in a mapping are simple values, mostly texts. Two
names with the same value are one name, whatever their kinds: a truth value counts as a number, and
a whole number equals the floating point number of its value. Mappings keep the order in which their
names were first written.

A configuration is made from a base by writing the settings of a user over it: mappings are merged
name by name, everything else is replaced, and the aliases are replaced as a whole.
-/

namespace RouteAssets

/-- A simple value. -/
inductive Scalar where
  | null
  | truth (b : Bool)
  | number (n : Number)
  | text (s : String)
  | time (t : Time)
  deriving DecidableEq, Repr, Inhabited

/-- A setting: a simple value, a list, or a mapping. -/
inductive Setting where
  | scalar (s : Scalar)
  | list (items : List Setting)
  | mapping (entries : List (Scalar × Setting))
  deriving Repr, Inhabited

namespace Scalar

/-- The number that a value counts as, if it is one. -/
def number? : Scalar → Option Number
  | truth b => some (.integer (if b then 1 else 0))
  | number n => some n
  | _ => none

/-- Do two names have the same value? -/
def same (a b : Scalar) : Bool :=
  match a.number?, b.number? with
  | some m, some n => m.same n
  | _, _ => a == b

/-- Does a value count as true? Null, zero and the empty text do not. -/
def isTruthy : Scalar → Bool
  | null => false
  | truth b => b
  | number n => !n.isZero
  | text s => s != ""
  | time _ => true

end Scalar

namespace Setting

/-- The settings of a mapping by their names. -/
abbrev Entries := List (Scalar × Setting)

/-- No setting. -/
def null : Setting := scalar .null

/-- A text as a setting. -/
def text (s : String) : Setting := scalar (.text s)

/-- A truth value as a setting. -/
def truth (b : Bool) : Setting := scalar (.truth b)

/-- A list of texts as a setting. -/
def texts (ss : List String) : Setting := list (ss.map text)

/-- A mapping whose names are texts. -/
def named (entries : List (String × Setting)) : Setting :=
  mapping (entries.map fun (name, s) => (.text name, s))

/-- Does a setting count as true? Null, zero and everything empty do not. -/
def isTruthy : Setting → Bool
  | scalar s => s.isTruthy
  | list items => !items.isEmpty
  | mapping entries => !entries.isEmpty

/-! ## Names in a mapping -/

/-- The setting with a name. -/
def lookup (name : Scalar) : Entries → Option Setting
  | [] => none
  | (n, s) :: es => if n.same name then some s else lookup name es

/-- Writes a setting: over the one with that name, or behind the last. A name that is there keeps
its form. -/
def write (name : Scalar) (s : Setting) : Entries → Entries
  | [] => [(name, s)]
  | (n, old) :: es => if n.same name then (n, s) :: es else (n, old) :: write name s es

/-- The entries of some pairs; of two pairs with one name the later setting stays. -/
def ofPairs (pairs : Entries) : Entries := pairs.foldl (fun es (n, s) => write n s es) []

/-- The setting with a name, in a mapping. -/
def get? (s : Setting) (name : String) : Option Setting :=
  match s with
  | mapping entries => lookup (.text name) entries
  | _ => none

/-! ## Writing over a base -/

/-- Is a mapping at this place replaced as a whole? The place is the list of names that lead to
it. -/
def isReplaced (place : List Scalar) : Bool := place == [.text "resolve", .text "aliases"]

mutual

/-- What becomes of a setting under one that is written over it. -/
def mergeValue (place : List Scalar) (base : Option Setting) : Setting → Setting
  | mapping us =>
    match base with
    | some (mapping bs) => if isReplaced place then mapping us else mapping (mergeEntries place bs us)
    | _ => mapping us
  | scalar s => scalar s
  | list items => list items

/-- The entries of a mapping with others written over them. -/
def mergeEntries (place : List Scalar) (base : Entries) : Entries → Entries
  | [] => base
  | (name, s) :: us =>
    mergeEntries place
      (write name (mergeValue (place ++ [name]) (lookup name base) s) base) us

end

/-- A base configuration with the settings of a user. -/
def merge (base user : Entries) : Entries := mergeEntries [] base user

end Setting

/-- A configuration: settings by name. -/
abbrev Config := Setting.Entries

/-! ## The standard configuration -/

/-- The configuration of a project that says nothing. Aliases and all other paths start at the
project root; of several registration files the later override the earlier. -/
def Config.standard : Config :=
  [ (.text "general", .named
      [("verbose", .truth false), ("project_root", .null)]),
    (.text "resolve", .named
      [("aliases", .named [("@", .text "src")]),
        ("extensions", .texts [".ts", ".tsx", ".js", ".jsx", ".mjs", ".vue", ".json"]),
        ("excluded_namespace", .text "node_modules")]),
    (.text "route_deps", .named
      [("router_dir", .text "src/ui/router"), ("ioc_map_files", .list []),
        ("source_dir", .text "src"), ("virtual_module_id", .text "virtual:route-deps-map"),
        ("enable_glob_imports", .truth true), ("include_static_chunks", .truth false),
        ("include_chunk_patterns", .list []), ("ioc_deps_file", .null),
        ("define_deps_functions", .texts ["defineDeps"]),
        ("define_component_functions", .texts ["defineComponent", "_defineComponent"])]),
    (.text "output", .named
      [("out_dir", .text "dist"), ("bundle_description", .text "dist/.vite/manifest.json"),
        ("asset_file_name", .text "route-deps-map.json"), ("generated_module_path", .null)]) ]

end RouteAssets
