import RouteAssets.Json.Value

/-!
# Checking JSON values

A description is checked field by field, and all that is wrong with it is reported together, in the
order of the fields. A field may have several names; the first one present counts. A truth value may
be written as the number 0 or 1, or as one of several words.
-/

namespace RouteAssets.Json

/-- A step towards a part of a value. -/
inductive Step where
  | member (name : String)
  | item (index : Nat)
  deriving DecidableEq, Repr

/-- What can be wrong with a part of a value. -/
inductive Fault where
  | missing
  | notText
  | notList
  | notTruth
  | unknownTruth
  | notObject
  deriving DecidableEq, Repr

/-- A fault and its place. -/
structure Violation where
  place : List Step
  fault : Fault
  deriving DecidableEq, Repr

/-- A checked value, or what is wrong with it. -/
abbrev Checked (α : Type) := Except (List Violation) α

/-- What is wrong with a checked value. -/
def violations {α : Type} : Checked α → List Violation
  | .ok _ => []
  | .error vs => vs

/-- Puts a step in front of every place. -/
def within {α : Type} (s : Step) : Checked α → Checked α
  | .ok a => .ok a
  | .error vs => .error (vs.map fun v => { v with place := s :: v.place })

/-- A single fault at the value itself. -/
def fault {α : Type} (f : Fault) : Checked α := .error [{ place := [], fault := f }]

/-! ## Kinds of values -/

/-- A text. -/
def checkText : Json → Checked String
  | string s => .ok s
  | _ => fault .notText

/-- A text or null. -/
def checkTextOrNull : Json → Checked (Option String)
  | null => .ok none
  | j => (checkText j).map some

/-- The items of a list that are texts, from an index on. -/
def checkTextsFrom : Nat → List Json → Checked (List String)
  | _, [] => .ok []
  | i, j :: js =>
    match within (.item i) (checkText j), checkTextsFrom (i + 1) js with
    | .ok s, .ok ss => .ok (s :: ss)
    | first, rest => .error (violations first ++ violations rest)

/-- A list of texts. -/
def checkTexts : Json → Checked (List String)
  | array js => checkTextsFrom 0 js
  | _ => fault .notList

/-- The words for false and for true, compared without regard to case. -/
def truthWords : List String × List String :=
  (["0", "off", "f", "false", "n", "no"], ["1", "on", "t", "true", "y", "yes"])

/-- The bounds of the whole numbers a floating point number may stand for. -/
def wholeBound : Nat := Nat.pow 2 63

/-- The truth value of a whole number. -/
def truthOfInt (i : Int) : Checked Bool :=
  if i == 0 then .ok false else if i == 1 then .ok true else fault .unknownTruth

/-- A truth value. -/
def checkTruth : Json → Checked Bool
  | bool b => .ok b
  | string s =>
    let word := Text.lower s
    if truthWords.1.contains word then .ok false
    else if truthWords.2.contains word then .ok true
    else fault .unknownTruth
  | number (.integer i) => truthOfInt i
  | number (.real x) =>
    match x.toInt? with
    | some i => if i.natAbs < wholeBound then truthOfInt i else fault .notTruth
    | none => fault .notTruth
  | _ => fault .notTruth

/-! ## Fields -/

/-- The member under the first of some names that is present, with that name. -/
def firstMember? (members : List (String × Json)) (names : List String) : Option (String × Json) :=
  names.findSome? fun n => (Table.lookup n members).map fun j => (n, j)

/-- A field that must be present. -/
def required {α : Type} (check : Json → Checked α) (members : List (String × Json))
    (names : List String) : Checked α :=
  match firstMember? members names with
  | some (n, j) => within (.member n) (check j)
  | none => within (.member (names.headD "")) (fault .missing)

/-- A field that may be missing. -/
def optional {α : Type} (check : Json → Checked α) (value : α) (members : List (String × Json))
    (names : List String) : Checked α :=
  match firstMember? members names with
  | some (n, j) => within (.member n) (check j)
  | none => .ok value

end RouteAssets.Json
