import RouteAssets.Script.Literal
import RouteAssets.Table

/-!
# Questions to a syntax tree

What the rest of the library wants to know about a script: which calls it makes and with what, what
its object and array literals hold, and which values its top-level constants have. Every answer is a
function of the tree alone.
-/

namespace RouteAssets.Script.Tree

/-! ## Calls -/

/-- What a call calls: its first child. -/
def callee? : Tree → Option Tree
  | node .call (t :: _) => some t
  | _ => none

/-- Is it an argument list, or the template of a tagged template? -/
def isArgumentList (t : Tree) : Bool := t.isNode .arguments || t.isNode .template

/-- The arguments of a call. Those of a tagged template are the parts of the template. -/
def callArguments : Tree → List Tree
  | node .call (_ :: ts) => ((ts.find? isArgumentList).map namedChildren).getD []
  | _ => []

/-- Is it a call of `import`? -/
def isImportCall (t : Tree) : Bool := t.callee?.any (isToken .importWord)

/-- The first argument of a call, when it is a literal. -/
def firstLiteral? (t : Tree) : Option String :=
  match t.callArguments with
  | [] => none
  | a :: _ => a.stringValue?

/-- The literal specifier of an `import` call; a computed one has none. -/
def importSpecifier? (t : Tree) : Option String := if t.isImportCall then t.firstLiteral? else none

/-- Which of the two glob methods of `import.meta` a call calls. Spaces inside the object are
ignored, other blanks are not. -/
def globMethod? (t : Tree) : Option String :=
  match t.callee? with
  | some (node .member [object, _, property]) =>
    let method := property.text
    if object.text.toList.filter (· != ' ') == "import.meta".toList &&
        (method == "glob" || method == "globEager") then some method
    else none
  | _ => none

/-- The name of a call of a plain function; a call of a member has none. -/
def calleeName? (t : Tree) : Option String :=
  match t.callee? with
  | some f => if f.unwrap.isToken .identifier then some f.unwrap.text else none
  | none => none

/-- The variable that a tree names: an identifier or a shorthand property. -/
def variableName? (t : Tree) : Option String :=
  if t.isToken .identifier || t.isToken .shorthandName then some t.text else none

/-! ## Objects and arrays -/

/-- The name of a property: a word, or the value of a string. -/
def propertyName? (key : Tree) : Option String :=
  if key.isToken .propertyName then some key.text
  else if key.isToken .string then key.literalValue?
  else none

/-- The name and the value that an item of an object literal defines. Methods, spreads and computed
or numeric names define none. -/
def property? : Tree → Option (String × Tree)
  | node .pair ts =>
    match ts.head?, ts.getLast? with
    | some key, some value => (propertyName? key).map fun name => (name, value)
    | _, _ => none
  | leaf t => if t.kind == .shorthandName then some (t.text, leaf t) else none
  | _ => none

/-- The properties of an object literal inside transparent wrappers. A repeated name keeps its place
and takes its last value. -/
def properties (t : Tree) : Table String Tree :=
  match t.unwrap with
  | node .object ts => Table.ofList (ts.filterMap property?)
  | _ => Table.empty

/-- The elements of an array literal inside transparent wrappers. -/
def elements (t : Tree) : List Tree :=
  match t.unwrap with
  | node .array ts => ts.filter isNamed
  | _ => []

/-! ## Top-level constants -/

/-- The name and the value that a declarator defines, when the name is plain and a value is
there. -/
def declaredValue? : Tree → Option (String × Tree)
  | node .variableDeclarator (name :: ts) =>
    match ts.find? (isNode .initializer) with
    | some i =>
      if name.isToken .identifier then i.children.getLast?.map fun v => (name.text, v) else none
    | none => none
  | _ => none

/-- Is it a declaration of variables? -/
def isVariableDeclaration (t : Tree) : Bool :=
  t.isNode .lexicalDeclaration || t.isNode .variableDeclaration

/-- The variable declaration that a statement is, or exports. -/
def declaration? (statement : Tree) : Option Tree :=
  if statement.isNode .exportStatement then statement.children.find? isVariableDeclaration
  else if statement.isVariableDeclaration then some statement
  else none

/-- The values of the variables declared at the top level of a script. A repeated name keeps its
place and takes its last value. -/
def constants (root : Tree) : Table String Tree :=
  Table.ofList (root.children.flatMap fun s =>
    match s.declaration? with
    | some d => d.children.filterMap declaredValue?
    | none => [])

/-! ## Import and export statements -/

/-- The module that an import or export statement reads from: the string of its `from` clause, or
the string of a side-effect import. -/
def source? (statement : Tree) : Option String :=
  let holder := (statement.child? .fromClause).getD statement
  if statement.isNode .importStatement || (statement.child? .fromClause).isSome then
    (holder.children.find? (isToken .string)).bind stringValue?
  else none

/-- Is the statement or specifier marked as type-only? -/
def isTypeOnly (t : Tree) : Bool := t.children.any (isWord "type")

end RouteAssets.Script.Tree
