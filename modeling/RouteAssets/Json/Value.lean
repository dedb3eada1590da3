import RouteAssets.Decimal.Shortest
import RouteAssets.Table
import RouteAssets.Text.Quoted
import RouteAssets.Text.Search

/-!
# JSON values

Numbers written without point and exponent are whole numbers of any size, all others are floating
point. An object keeps its members in order and holds no name twice.
-/

namespace RouteAssets

/-- A number: whole, or floating point. -/
inductive Number where
  | integer (i : Int)
  | real (x : Binary64)
  deriving DecidableEq, Repr

namespace Number

/-- The fraction that a number is, if it is finite. -/
def ratio? : Number → Option Rat
  | integer i => some i
  | real x => x.ratio?

/-- Do two numbers have the same value? One that is not finite equals itself only. -/
def same (m n : Number) : Bool := m.ratio? == n.ratio? && (m.ratio?.isSome || m == n)

/-- Is it zero? -/
def isZero : Number → Bool
  | integer i => i == 0
  | real x => x.isZero

/-- The text of a number. -/
def text : Number → String
  | integer i => toString i
  | real x => x.text

end Number

/-- A JSON value. -/
inductive Json where
  | null
  | bool (b : Bool)
  | number (n : Number)
  | string (s : String)
  | array (items : List Json)
  | object (members : List (String × Json))
  deriving Repr, Inhabited

namespace Json

/-- An object with the given members; of two with one name the later value stays, at the place of
the earlier. -/
def ofMembers (members : List (String × Json)) : Json := object (Table.ofList members).entries

/-- The member of an object with the given name. -/
def member? (name : String) : Json → Option Json
  | object members => Table.lookup name members
  | _ => none

/-- Does a value count as true? Null, zero and everything empty do not. -/
def isTruthy : Json → Bool
  | null => false
  | bool b => b
  | number n => !n.isZero
  | string s => s != ""
  | array items => !items.isEmpty
  | object members => !members.isEmpty

/-- Is it one of the values that can be looked up, which containers cannot? -/
def isScalar : Json → Bool
  | array _ => false
  | object _ => false
  | _ => true

/-- A truth value as a number. -/
def ofTruth (b : Bool) : Number := .integer (if b then 1 else 0)

mutual

/-- Are two values equal? Truth values equal the numbers 0 and 1, and the order of members does
not matter. -/
def same : Json → Json → Bool
  | null, null => true
  | bool a, bool b => a == b
  | bool a, number n => (ofTruth a).same n
  | number n, bool a => n.same (ofTruth a)
  | number m, number n => m.same n
  | string s, string t => s == t
  | array xs, array ys => sameItems xs ys
  | object xs, object ys => xs.length == ys.length && sameMembers xs ys
  | _, _ => false

/-- Are two lists equal item by item? -/
def sameItems : List Json → List Json → Bool
  | [], [] => true
  | x :: xs, y :: ys => same x y && sameItems xs ys
  | _, _ => false

/-- Does every member occur in a list of members, with an equal value? -/
def sameMembers : List (String × Json) → List (String × Json) → Bool
  | [], _ => true
  | (name, x) :: xs, ys =>
    (match Table.lookup name ys with
      | some y => same x y
      | none => false) && sameMembers xs ys

end

mutual

/-- How a value is shown inside another one. -/
def shown : Json → String
  | null => "None"
  | bool true => "True"
  | bool false => "False"
  | number n => n.text
  | string s => Text.quoted s
  | array items => "[" ++ Text.joinWith ", " (shownItems items) ++ "]"
  | object members => "\x7b" ++ Text.joinWith ", " (shownMembers members) ++ "\x7d"

/-- How the items of an array are shown. -/
def shownItems : List Json → List String
  | [] => []
  | x :: xs => shown x :: shownItems xs

/-- How the members of an object are shown. -/
def shownMembers : List (String × Json) → List String
  | [] => []
  | (name, x) :: xs => (Text.quoted name ++ ": " ++ shown x) :: shownMembers xs

end

/-- The text of a value on its own: a string stands for itself. -/
def text : Json → String
  | string s => s
  | j => j.shown

end Json

end RouteAssets
