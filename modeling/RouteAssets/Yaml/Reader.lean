import RouteAssets.Yaml.Node

/-!
# Reading settings from YAML

The setting that a node stands for. A merge mark among the names of a mapping takes in the entries of
other mappings, in front of the own ones and so with less weight; of several mappings the first has
the most. Names are simple values.

A document is read in rounds. A simple value is read where it stands; what is inside a list or a
mapping is put off to the next round, in which it is read in order, while a name is read at once with
everything inside it. Reading ends at the first fault that shows: of several faults it is the one in
the earliest round, and of those in one round the first.
-/

namespace RouteAssets.Yaml

/-! ## Rounds -/

/-- What a part of a document is read as: a value, or a fault and the round in which it shows. -/
abbrev Reading (α : Type) := Except (Nat × Fault) α

namespace Reading

variable {α β : Type}

/-- What is read where it stands. -/
def now (r : Except Fault α) : Reading α := r.mapError fun f => (0, f)

/-- What is put off to the next round, unless everything is read at once. -/
def later (atOnce : Bool) (r : Reading α) : Reading α :=
  if atOnce then r else r.mapError fun e => (e.1 + 1, e.2)

/-- Two parts, the first one in front of the second in every round. -/
def both (r : Reading α) (s : Reading β) : Reading (α × β) :=
  match r, s with
  | .ok a, .ok b => .ok (a, b)
  | .ok _, .error e => .error e
  | .error e, .ok _ => .error e
  | .error e, .error e' => .error (if e'.1 < e.1 then e' else e)

/-- Several parts in order. -/
def all : List (Reading α) → Reading (List α)
  | [] => .ok []
  | r :: rs => (both r (all rs)).map fun x => x.1 :: x.2

end Reading

open Reading

/-! ## Marks, names and texts -/

/-- Is the node the mark with the given tag? -/
def Node.isMark (t : Tag) : Node → Bool
  | .scalar tag _ => tag == t
  | .sequence tag _ => tag == t
  | .mapping tag _ => tag == t

/-- Does the tag stand for a collection, which is read in a round of its own? -/
def Tag.isCollection (t : Tag) : Bool := t == .list || t == .mapping || t == .pairs

mutual

/-- The text of a node that is read as a simple value: its own, or the one under the mark of a
default in a mapping. -/
def Node.scalarText : Node → Except Fault String
  | .scalar _ text => .ok text
  | .sequence _ _ => .error .malformed
  | .mapping _ entries => defaultText entries

/-- The text under the first mark of a default. -/
def defaultText : List (Node × Node) → Except Fault String
  | [] => .error .malformed
  | (key, value) :: es => if key.isMark .default then value.scalarText else defaultText es

end

/-- The simple value that a node stands for under a tag. -/
def Node.scalarValue (tag : Tag) (n : Node) : Except Fault Scalar := do
  readScalar tag (← n.scalarText)

/-- The name that a setting is in a mapping. -/
def nameOf : Setting → Reading Scalar
  | .scalar s => .ok s
  | _ => now (.error .malformed)

/-- The name that a node stands for in a mapping, given what the node is read as. The mark of a
default is a text there. -/
def Node.nameReading (r : Reading Setting) : Node → Reading Scalar
  | .scalar .default text => .ok (.text text)
  | .mapping .default entries => now (Node.scalarValue .text (.mapping .default entries))
  | _ => r >>= nameOf

/-- The mapping of some entries; of two with one name the later setting stays. -/
def mappingOf (entries : Reading Setting.Entries) : Reading Setting :=
  entries.map fun es => .mapping (Setting.ofPairs es)

/-! ## Nodes -/

mutual

/-- The setting that a node stands for, read in rounds or at once. -/
def Node.reading (atOnce : Bool) : Node → Reading Setting
  | .scalar tag text =>
    if tag.isCollection then later atOnce (now (.error .malformed))
    else now ((readScalar tag text).map .scalar)
  | .sequence .list items => later atOnce ((all (itemReadings atOnce items)).map .list)
  | .sequence .pairs items => later atOnce ((all (pairReadings atOnce items)).map .list)
  | .sequence tag _ => later (atOnce || !tag.isCollection) (now (.error .malformed))
  | .mapping .mapping entries =>
    later atOnce (do
      let (merged, own) ← now (entryReadings atOnce entries)
      mappingOf (all (merged ++ own)))
  | .mapping tag entries =>
    if tag.isCollection then later atOnce (now (.error .malformed))
    else now ((Node.scalarValue tag (.mapping tag entries)).map .scalar)

/-- What the items of a list are read as. -/
def itemReadings (atOnce : Bool) : List Node → List (Reading Setting)
  | [] => []
  | n :: ns => n.reading atOnce :: itemReadings atOnce ns

/-- What the items of a list of pairs are read as: each is a mapping with one entry. -/
def pairReadings (atOnce : Bool) : List Node → List (Reading Setting)
  | [] => []
  | .mapping _ [(key, value)] :: ns =>
    (both (key.reading atOnce) (value.reading atOnce)).map (fun x => .list [x.1, x.2]) ::
      pairReadings atOnce ns
  | _ :: ns => now (.error .malformed) :: pairReadings atOnce ns

/-- What the entries of a mapping are read as: those merged in, and its own. What is merged in is
settled before anything is read. -/
def entryReadings (atOnce : Bool) : List (Node × Node) →
    Except Fault (List (Reading (Scalar × Setting)) × List (Reading (Scalar × Setting)))
  | [] => .ok ([], [])
  | (key, value) :: es =>
    if key.isMark .merge then do
      let here ← mergedReadings atOnce value
      let (merged, own) ← entryReadings atOnce es
      return (here ++ merged, own)
    else do
      let (merged, own) ← entryReadings atOnce es
      return (merged, both (key.nameReading (key.reading true)) (value.reading atOnce) :: own)

/-- What the entries that a merge mark takes in are read as. -/
def mergedReadings (atOnce : Bool) : Node → Except Fault (List (Reading (Scalar × Setting)))
  | .mapping _ entries => do
    let (merged, own) ← entryReadings atOnce entries
    return merged ++ own
  | .sequence _ items => do return (← mergedLists atOnce items).reverse.flatten
  | .scalar _ _ => .error .malformed

/-- What the entries that each node of a list contributes to a merge are read as. -/
def mergedLists (atOnce : Bool) : List Node → Except Fault (List (List (Reading (Scalar × Setting))))
  | [] => .ok []
  | .mapping _ entries :: ns => do
    let (merged, own) ← entryReadings atOnce entries
    return (merged ++ own) :: (← mergedLists atOnce ns)
  | _ :: _ => .error .malformed

end

/-- The setting that the node of a document stands for. -/
def Node.setting (n : Node) : Except Fault Setting := (n.reading false).mapError Prod.snd

end RouteAssets.Yaml

namespace RouteAssets.Setting

/-- The setting that a YAML text describes; an empty text describes null. -/
def ofYaml (text : String) : Except Yaml.Fault Setting := do
  match ← Yaml.Node.ofText text.toList with
  | some node => node.setting
  | none => return .null

end RouteAssets.Setting
