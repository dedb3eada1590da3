import RouteAssets.Module.Id
import RouteAssets.Script.Query
import RouteAssets.Script.Source

/-!
# Requested dependencies

A module requests dependencies from the container by name, in three spellings: the elements of an
array, or the values of an object, given to a declaring function, and the values of the `deps`
property of the options given to a component function. A container may be wrapped, and it may be a
top-level constant. What counts is the source text of each element or value.
-/

namespace RouteAssets

open RouteAssets.Script

/-- The symbolic name of a dependency. -/
abbrev DepId := String

namespace Usage

/-- Which functions declare dependencies, and which take component options. -/
structure Vocabulary where
  declaring : List String
  component : List String
  deriving DecidableEq, Repr

/-- The functions recognised without configuration. -/
def Vocabulary.standard : Vocabulary :=
  { declaring := ["defineDeps"], component := ["defineComponent", "_defineComponent"] }

/-! ## Local names -/

/-- The alias under which a specifier imports one of the given names. -/
def aliasOf? (names : List String) (specifier : Tree) : Option String :=
  if specifier.isNode .importSpecifier then
    let parts := specifier.children.filter fun t => !t.isWord "type" && !t.isWord "typeof"
    match parts with
    | [imported, _, local_] => if names.contains imported.text then some local_.text else none
    | _ => none
  else none

/-- The given names and the aliases under which a script imports them. -/
def localNames (root : Tree) (names : List String) : List String :=
  let aliases := (root.children.filter (Tree.isNode .importStatement)).flatMap fun statement =>
    statement.walk.filterMap (aliasOf? names)
  distinct (names ++ aliases)

/-! ## Containers -/

/-- The value of a variable, when the tree names one and it is a constant; any other tree stands for
itself. The value is given without its wrappers. -/
def dereference? (constants : Table String Tree) (t : Tree) : Option Tree :=
  match t.unwrap.variableName? with
  | some name => (constants.get? name).map Tree.unwrap
  | none => some t.unwrap

/-- The dependencies that a container lists, as source texts. -/
def containerTexts (constants : Table String Tree) (container : Tree) : List String :=
  match dereference? constants container with
  | none => []
  | some t =>
    if t.isNode .object then t.properties.values.map Tree.text
    else if t.isNode .array then t.elements.map Tree.text
    else []

/-- The options of a component, when the tree names a constant or is the options. -/
def options? (constants : Table String Tree) (t : Tree) : Option Tree :=
  let t := t.unwrap
  if t.isToken .identifier then constants.get? t.text else some t

/-- The dependencies that one call requests. -/
def callTexts (vocabulary : Vocabulary) (declaring : List String) (constants : Table String Tree)
    (t : Tree) : List String :=
  match t.calleeName?, t.callArguments with
  | some name, first :: _ =>
    if declaring.contains name then containerTexts constants first
    else if vocabulary.component.contains name then
      match (options? constants first).bind fun o => o.properties.get? "deps" with
      | some container => containerTexts constants container
      | none => []
    else []
  | _, _ => []

/-- The dependencies that a script requests, at first occurrence. -/
def collect (source : Source) (vocabulary : Vocabulary) : List DepId :=
  match source.root? with
  | none => []
  | some root =>
    let constants := root.constants
    let declaring := localNames root vocabulary.declaring
    distinct ((root.walk.flatMap (callTexts vocabulary declaring constants)).filter (· != ""))

end Usage

end RouteAssets
