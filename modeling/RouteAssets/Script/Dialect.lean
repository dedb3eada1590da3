/-!
# Script dialects

A script is written in plain JavaScript (which includes its markup extension), in TypeScript, or in
TypeScript with markup. The dialect of a file follows from its extension. Single-file components
have a script language of their own inside, so they are a fourth answer that is not a dialect.
-/

namespace RouteAssets.Script

/-- The three grammars a script can be read with. -/
inductive Dialect where
  | javascript
  | typescript
  | tsx
  deriving DecidableEq, Repr

namespace Dialect

/-- The name under which a dialect is selected and reported. -/
def name : Dialect → String
  | javascript => "javascript"
  | typescript => "typescript"
  | tsx => "tsx"

/-- The dialect of a name. -/
def ofName? (s : String) : Option Dialect :=
  if s == "javascript" then some javascript
  else if s == "typescript" then some typescript
  else if s == "tsx" then some tsx
  else none

/-- Does the dialect have type annotations? -/
def hasTypes : Dialect → Bool
  | javascript => false
  | _ => true

/-- Does the dialect have markup elements as expressions? -/
def hasMarkup : Dialect → Bool
  | typescript => false
  | _ => true

theorem ofName?_name (d : Dialect) : ofName? d.name = some d := by cases d <;> rfl

end Dialect

end RouteAssets.Script
