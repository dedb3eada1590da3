import RouteAssets.Yaml.Token
import RouteAssets.Yaml.Typing

/-!
# YAML nodes

The tree that the tokens of a document form, with every tag resolved and every alias replaced by the
node it names. An anchor names one node only, and the node must be complete where an alias refers to
it.
-/

namespace RouteAssets.Yaml

/-- A node: a scalar, a sequence or a mapping, with its tag. -/
inductive Node where
  | scalar (tag : Tag) (text : String)
  | sequence (tag : Tag) (items : List Node)
  | mapping (tag : Tag) (entries : List (Node × Node))
  deriving Repr

/-- What is left to read, what anchors name so far, and what tag handles stand for. An anchor whose
node is not complete names none yet. -/
structure Composing where
  tokens : List Token
  anchors : List (String × Option Node)
  handles : List (String × String)
  deriving Repr

/-- A step of building nodes. -/
abbrev Compose (α : Type) := StateT Composing (Except Fault) α

namespace Compose

/-! ## Tokens -/

/-- The next token. -/
def look : Compose Token := return (← get).tokens.headD .done

/-- Steps over the next token. -/
def drop : Compose Unit := modify fun c => { c with tokens := c.tokens.drop 1 }

/-- Gives up at the next token. -/
def refuse {α : Type} : Compose α := do
  match ← look with
  | .broken f => throw f
  | _ => throw .malformed

/-- Steps over the next token, which must be the given one. -/
def expect (t : Token) : Compose Unit := do
  if (← look) == t then drop else refuse

/-- Is the next token one of the given ones? -/
def sees (ts : List Token) : Compose Bool := return ts.contains (← look)

/-! ## Tags and anchors -/

/-- The full name of a written tag. -/
def tagName (t : TagText) : Compose String := do
  match t.handle with
  | none => return t.suffix
  | some handle =>
    match Table.lookup handle (← get).handles with
    | some start => return start ++ t.suffix
    | none => throw .malformed

/-- The anchor and the tag in front of a node, in either order. -/
def properties : Compose (Option String × Option String) := do
  match ← look with
  | .anchor name =>
    drop
    match ← look with
    | .tag t => drop; return (some name, some (← tagName t))
    | _ => return (some name, none)
  | .tag t =>
    drop
    match ← look with
    | .anchor name => drop; return (some name, some (← tagName t))
    | _ => return (none, some (← tagName t))
  | _ => return (none, none)

/-- Announces the node of an anchor. -/
def announce (anchor : Option String) : Compose Unit := do
  if let some name := anchor then
    if ((← get).anchors.any fun a => a.1 == name) then throw .malformed
    modify fun c => { c with anchors := (name, none) :: c.anchors }

/-- Names a complete node. -/
def complete (anchor : Option String) (node : Node) : Compose Node := do
  if let some name := anchor then
    modify fun c => { c with anchors := (name, some node) :: c.anchors }
  return node

/-- The node that an alias refers to. -/
def referred (name : String) : Compose Node := do
  match Table.lookup name (← get).anchors with
  | some (some node) => return node
  | _ => throw .malformed

/-- The tag of a scalar. A plain one without a tag, and every one with the bare tag, has the type of
its text. -/
def scalarTag (tag : Option String) (plain : Bool) (text : String) : Tag :=
  match tag with
  | none => if plain then Tag.ofPlain text else .text
  | some "!" => Tag.ofPlain text
  | some name => Tag.ofName name

/-- The tag of a collection, given the one it has without. -/
def collectionTag (tag : Option String) (usual : Tag) : Tag :=
  match tag with
  | none => usual
  | some "!" => usual
  | some name => Tag.ofName name

/-- The node of something that is left out. -/
def absent : Node := .scalar .null ""

/-! ## Nodes -/

/-- Where a node stands: inside a flow collection, or in a block, where entries of a sequence may
stand without further indentation in the value of a mapping. -/
inductive Place where
  | flow
  | block
  | value
  deriving DecidableEq, Repr

/-- A node, unless one of some tokens comes instead. -/
def orAbsent (stop : List Token) (node : Compose Node) : Compose Node := do
  if ← sees stop then return absent else node

mutual

/-- The next node, in at most `n` nested steps. -/
def node : Nat → Place → Compose Node
  | 0, _ => throw .malformed
  | n + 1, place => do
    if let .alias name := ← look then
      drop
      return ← referred name
    let (anchor, tag) ← properties
    announce anchor
    match ← look, place with
    | .blockEntry, .value =>
      complete anchor (.sequence (collectionTag tag .list) (← indentless n))
    | .scalar plain text, _ =>
      drop
      complete anchor (.scalar (scalarTag tag plain text) text)
    | .flowSequence, _ =>
      drop
      complete anchor (.sequence (collectionTag tag .list) (← flowItems n true))
    | .flowMapping, _ =>
      drop
      complete anchor (.mapping (collectionTag tag .mapping) (← flowEntries n true))
    | .blockSequence, .block => complete anchor (← blockSequence n tag)
    | .blockSequence, .value => complete anchor (← blockSequence n tag)
    | .blockMapping, .block => complete anchor (← blockMapping n tag)
    | .blockMapping, .value => complete anchor (← blockMapping n tag)
    | _, _ =>
      if anchor.isSome || tag.isSome then complete anchor (.scalar (scalarTag tag true "") "")
      else refuse

/-- A block sequence, from its opening token on. -/
def blockSequence : Nat → Option String → Compose Node
  | 0, _ => throw .malformed
  | n + 1, tag => do
    drop
    return .sequence (collectionTag tag .list) (← blockItems n)

/-- The items of a block sequence. -/
def blockItems : Nat → Compose (List Node)
  | 0 => throw .malformed
  | n + 1 => do
    if ← sees [.blockEntry] then
      drop
      let item ← orAbsent [.blockEntry, .blockEnd] (node n .block)
      return item :: (← blockItems n)
    else
      expect .blockEnd
      return []

/-- The items of a sequence without indentation of its own. -/
def indentless : Nat → Compose (List Node)
  | 0 => throw .malformed
  | n + 1 => do
    if ← sees [.blockEntry] then
      drop
      let item ← orAbsent [.blockEntry, .key, .value, .blockEnd] (node n .block)
      return item :: (← indentless n)
    else return []

/-- A block mapping, from its opening token on. -/
def blockMapping : Nat → Option String → Compose Node
  | 0, _ => throw .malformed
  | n + 1, tag => do
    drop
    return .mapping (collectionTag tag .mapping) (← blockEntries n)

/-- The value behind a key, if a value mark is here. -/
def valueOr : Nat → List Token → Place → Compose Node
  | 0, _, _ => throw .malformed
  | n + 1, stop, place => do
    if ← sees [.value] then
      drop
      orAbsent stop (node n place)
    else return absent

/-- The entries of a block mapping. -/
def blockEntries : Nat → Compose (List (Node × Node))
  | 0 => throw .malformed
  | n + 1 => do
    if ← sees [.key] then
      drop
      let key ← orAbsent [.key, .value, .blockEnd] (node n .value)
      let value ← valueOr n [.key, .value, .blockEnd] .value
      return (key, value) :: (← blockEntries n)
    else
      expect .blockEnd
      return []

/-- The items of a flow sequence; a pair among them is a mapping of one entry. -/
def flowItems : Nat → Bool → Compose (List Node)
  | 0, _ => throw .malformed
  | n + 1, isFirst => do
    if ← sees [.flowSequenceEnd] then drop; return []
    unless isFirst do expect .flowEntry
    if ← sees [.flowSequenceEnd] then drop; return []
    let item ← if ← sees [.key] then do
        drop
        let key ← orAbsent [.value, .flowEntry, .flowSequenceEnd] (node n .flow)
        let value ← valueOr n [.flowEntry, .flowSequenceEnd] .flow
        pure (.mapping .mapping [(key, value)])
      else node n .flow
    return item :: (← flowItems n false)

/-- The entries of a flow mapping; a node on its own is a key without a value. -/
def flowEntries : Nat → Bool → Compose (List (Node × Node))
  | 0, _ => throw .malformed
  | n + 1, isFirst => do
    if ← sees [.flowMappingEnd] then drop; return []
    unless isFirst do expect .flowEntry
    if ← sees [.flowMappingEnd] then drop; return []
    let entry ← if ← sees [.key] then do
        drop
        let key ← orAbsent [.value, .flowEntry, .flowMappingEnd] (node n .flow)
        let value ← valueOr n [.flowEntry, .flowMappingEnd] .flow
        pure (key, value)
      else do
        let key ← node n .flow
        pure (key, absent)
    return entry :: (← flowEntries n false)

end

/-! ## Documents -/

/-- The handles that need no directive. -/
def standardHandles : List (String × String) := [("!", "!"), ("!!", Tag.home)]

/-- Reads the directives in front of a document, given whether a version has been stated. No handle
is stated twice. -/
def directives : Nat → Bool → List (String × String) → Compose (List (String × String))
  | 0, _, _ => throw .malformed
  | n + 1, hasVersion, handles => do
    match ← look with
    | .directive (.version major) =>
      drop
      if hasVersion || major != 1 then throw .malformed
      directives n true handles
    | .directive (.handle name start) =>
      drop
      if handles.any (·.1 == name) then throw .malformed
      directives n hasVersion ((name, start) :: handles)
    | .directive .other =>
      drop
      directives n hasVersion handles
    | _ => return handles

/-- Steps over marks of the end of a document. -/
def skipEnds : Compose Unit :=
  modify fun c => { c with tokens := c.tokens.dropWhile (· == .documentEnd) }

/-- The contents of a document that starts with a mark. -/
def marked (n : Nat) : Compose Node := do
  let handles ← directives n false []
  modify fun c => { c with handles := handles ++ standardHandles }
  expect .documentStart
  match ← look with
  | .directive _ => return absent
  | .documentStart => return absent
  | .documentEnd => return absent
  | .done => return absent
  | _ => node n .block

/-- The only document of a text, if there is one. -/
def document (n : Nat) : Compose (Option Node) := do
  let isMarked :=
    match ← look with
    | .directive _ => true
    | .documentStart => true
    | _ => false
  if ← sees [.done] then return none
  let root ←
    if isMarked then marked n
    else do
      modify fun c => { c with handles := standardHandles }
      node n .block
  skipEnds
  if ← sees [.done] then return some root else refuse

end Compose

/-- The number of nested steps that suffice for some tokens. -/
def stepsFor (ts : List Token) : Nat := 4 * ts.length + 4

/-- The node of a text; none when the text is empty. -/
def Node.ofText (text : List Char) : Except Fault (Option Node) :=
  let tokens := Token.ofText text
  (Compose.document (stepsFor tokens)).run' { tokens, anchors := [], handles := [] }

end RouteAssets.Yaml
