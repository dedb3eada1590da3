import RouteAssets.Script.Grammar.Expressions

/-!
# Declarations, imports and exports

Variable declarations keep each initial value in a node of its own, so that a declared name and its
value can be found by position. Import and export statements keep the module they read from in a
`from` clause; a side-effect import holds its string directly.
-/

namespace RouteAssets.Script

open Rule

/-! ## Variables -/

/-- One declared variable. -/
def variableDeclarator (g : Grammar) : Rule :=
  node .variableDeclarator <| seq
    [ declaredPattern g,
      opt (typed (seq [sym "!", ahead (sym ":")])),
      opt (typed (typeAscription g)),
      opt (initializer g) ]

/-- Declared variables and the end of their statement, which depends on whether the last one has an
initial value. -/
def declarators (g : Grammar) : Rule := fun c =>
  match sepBy1 (variableDeclarator g) (sym ",") c with
  | none => none
  | some (ts, c') =>
    let initialised := ts.getLast?.any fun t => (t.child? .initializer).isSome
    seqOnto ts [semicolon initialised] c'

/-- A `let` or `const` declaration. -/
def lexicalDeclaration (g : Grammar) : Rule :=
  node .lexicalDeclaration (seq [alt [kw "let", kw "const"], declarators g])

/-- A `var` declaration. -/
def variableDeclaration (g : Grammar) : Rule :=
  node .variableDeclaration (seq [kw "var", declarators g])

/-- A declaration of a resource. -/
def usingDeclaration (g : Grammar) : Rule :=
  node .usingDeclaration (seq [opt (kw "await"), kw "using", declarators g])

/-! ## Declarations of dialects with types -/

/-- A dotted name. -/
def dottedName : Rule :=
  extended (anyWord .identifier) fun t => nodeAfter .member t (seq [sym ".", anyWord .propertyName])

/-- An interface. -/
def interfaceDeclaration (g : Grammar) : Rule :=
  node .interfaceDeclaration <| seq
    [ kw "interface", anyWord .typeName, opt (typeParameters g),
      opt (seq [kw "extends", sepBy1 (g .type) (sym ",")]), objectType g ]

/-- A type alias. -/
def typeAliasDeclaration (g : Grammar) : Rule :=
  node .typeAliasDeclaration <| seq
    [ kwHere "type", anyWord .typeName, opt (typeParameters g), sym "=", g .type,
      semicolon false ]

/-- An enumeration. -/
def enumDeclaration (g : Grammar) : Rule :=
  node .enumDeclaration <| seq
    [ opt (kw "const"), kw "enum", anyWord .identifier,
      node .enumBody (seq
        [ sym "\x7b",
          opt (commaTerminated (seq [memberName g, opt (initializer g)])),
          sym "\x7d" ]) ]

/-- A namespace or a module, perhaps without a body. -/
def moduleDeclaration (g : Grammar) : Rule :=
  node .moduleDeclaration <| alt
    [ seq [kwHere "namespace", dottedName, opt (g .block)],
      seq [kwHere "module", alt [string, dottedName], opt (g .block)] ]

/-- A second name for a member of a namespace. -/
def importAlias : Rule :=
  node .importAlias (seq [kw "import", binding, sym "=", dottedName, semicolon false])

/-- A declaration without `declare` in front. -/
def plainDeclaration (g : Grammar) : Rule :=
  select fun c =>
    match c.word with
    | "var" => variableDeclaration g
    | "let" => lexicalDeclaration g
    | "const" => alt [typed (enumDeclaration g), lexicalDeclaration g]
    | "function" | "async" => alt [functionDeclaration g, functionSignature g]
    | "class" => classDeclaration g
    | "using" => if c.dialect.hasTypes then fail else usingDeclaration g
    | "abstract" => typed (classDeclaration g)
    | "interface" => typed (interfaceDeclaration g)
    | "type" => typed (typeAliasDeclaration g)
    | "enum" => typed (enumDeclaration g)
    | "namespace" | "module" => typed (moduleDeclaration g)
    | "import" => typed importAlias
    | _ => if c.startsWith "@" then classDeclaration g else fail

/-- Something declared to exist elsewhere. -/
def ambientDeclaration (g : Grammar) : Rule :=
  node .ambientDeclaration <| typed <| seq
    [kwHere "declare", alt [seq [kw "global", g .block], plainDeclaration g]]

/-- A declaration. -/
def declaration (g : Grammar) : Rule := alt [plainDeclaration g, ambientDeclaration g]

/-! ## Names across modules -/

/-- A name that one module gives to another: an identifier, a string or `default`. -/
def exportedName : Rule := alt [binding, string, kw "default"]

/-- The word that marks a type-only import or export, when a name to import follows it. -/
def typeOnlyMark (wordsAfter : String → Bool) : Rule :=
  typed <| seq
    [ alt [kw "type", kw "typeof"],
      guard fun c =>
        c.startsWith "\x7b" || c.startsWith "*" || (c.word != "" && wordsAfter c.word) ]

/-- The mark of a type-only specifier. -/
def specifierTypeMark : Rule :=
  typed <| seq
    [ alt [kw "type", kw "typeof"],
      guard fun c =>
        (c.word != "" && c.word != "as") || c.startsWith "\x22" || c.startsWith "\x27" ]

/-- A list of specifiers in braces. -/
def specifierList (specifier : Rule) : Rule :=
  seq [sym "\x7b", opt (sepBy1 specifier (sym ",")), opt (sym ","), sym "\x7d"]

/-- The module a statement reads from. -/
def fromClause : Rule := node .fromClause (seq [kw "from", string])

/-! ## Imports -/

/-- One imported name, perhaps under another local name. -/
def importSpecifier : Rule :=
  node .importSpecifier <| seq
    [ opt specifierTypeMark,
      alt [seq [exportedName, kw "as", binding], binding] ]

/-- All names of a module as one object. -/
def namespaceImport : Rule := node .namespaceImport (seq [sym "*", kw "as", binding])

/-- Imported names in braces. -/
def namedImports : Rule := node .namedImports (specifierList importSpecifier)

/-- What an import introduces. -/
def importClause : Rule :=
  node .importClause <| alt
    [ namespaceImport,
      namedImports,
      seq [binding, opt (seq [sym ",", alt [namespaceImport, namedImports]])] ]

/-- An import by assignment. -/
def importRequire : Rule :=
  node .importRequire <| seq
    [binding, sym "=", kw "require", sym "(", string, sym ")"]

/-- Attributes of an import. -/
def importAttribute (g : Grammar) : Rule := node .importAttribute (seq [kw "with", object g])

/-- An import statement. -/
def importStatement (g : Grammar) : Rule :=
  node .importStatement <| seq
    [ kw "import",
      opt (typeOnlyMark (· != "from")),
      alt
        [ seq [importClause, fromClause],
          typed importRequire,
          string ],
      opt (importAttribute g),
      semicolon false ]

/-! ## Exports -/

/-- One exported name, perhaps under another outer name. -/
def exportSpecifier : Rule :=
  node .exportSpecifier <| seq
    [opt specifierTypeMark, exportedName, opt (seq [kw "as", exportedName])]

/-- Exported names in braces. -/
def exportClause : Rule := node .exportClause (specifierList exportSpecifier)

/-- An export statement. -/
def exportStatement (g : Grammar) : Rule :=
  node .exportStatement <| seq
    [ many (decorator g),
      kw "export",
      alt
        [ seq [sym "*", fromClause, semicolon false],
          seq
            [ node .namespaceExport (seq [sym "*", kw "as", exportedName]), fromClause,
              semicolon false ],
          seq [exportClause, opt fromClause, semicolon false],
          typed (seq [kw "type", exportClause, opt fromClause, semicolon false]),
          typed (seq [sym "=", g (.expression false), semicolon true]),
          typed (seq [kw "as", kw "namespace", anyWord .identifier, semicolon false]),
          seq
            [ kw "default",
              alt [declaration g, seq [g (.expression false), semicolon true]] ],
          declaration g ] ]

end RouteAssets.Script
