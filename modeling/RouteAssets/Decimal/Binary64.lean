/-!
# Binary floating point numbers of 64 bits

A finite number is `mantissa * 2 ^ exponent` with a sign; zero has one too. Every operation goes
through exact rational numbers and rounds once, to the nearest number, a tie to the even mantissa.
-/

namespace RouteAssets

/-- A floating point number. Of the finite ones only those are used whose mantissa is below `2^53`,
whose exponent is at least `-1074`, and whose mantissa is at least `2^52` unless the exponent is the
smallest. -/
inductive Binary64 where
  | finite (negative : Bool) (mantissa : Nat) (exponent : Int)
  | infinite (negative : Bool)
  | nan
  deriving DecidableEq, Repr

namespace Binary64

/-- A power of two as a fraction. -/
def powerOfTwo (e : Int) : Nat × Nat :=
  match e with
  | .ofNat n => (Nat.pow 2 n, 1)
  | .negSucc n => (1, Nat.pow 2 (n + 1))

/-- A power of ten as a fraction. -/
def powerOfTen (e : Int) : Nat × Nat :=
  match e with
  | .ofNat n => (Nat.pow 10 n, 1)
  | .negSucc n => (1, Nat.pow 10 (n + 1))

/-- A quotient rounded to the nearest whole number, a tie to the even one. -/
def roundedQuotient (num den : Nat) : Nat :=
  let q := num / den
  let r := num % den
  if 2 * r < den then q
  else if den < 2 * r then q + 1
  else if q % 2 = 0 then q else q + 1

/-- The exponent at which a positive fraction has a mantissa of 53 bits, or the smallest one. -/
def exponentOf (num den : Nat) : Int :=
  let guess : Int := (num.log2 : Int) - (den.log2 : Int) - 53
  let (a, b) := powerOfTwo guess
  let exact := if num * b / (den * a) < Nat.pow 2 53 then guess else guess + 1
  max exact (-1074)

/-- The number nearest to a positive fraction. -/
def ofRatio (negative : Bool) (num den : Nat) : Binary64 :=
  if num = 0 then finite negative 0 (-1074)
  else
    let e := exponentOf num den
    let (a, b) := powerOfTwo e
    let m := roundedQuotient (num * b) (den * a)
    let (m, e) := if m = Nat.pow 2 53 then (Nat.pow 2 52, e + 1) else (m, e)
    if 971 < e then infinite negative else finite negative m e

/-- The number nearest to `digits * 10 ^ exponent`. Exponents beyond the range of the type are cut
off first, so that no huge power is computed. -/
def ofDecimal (negative : Bool) (digits : Nat) (exponent : Int) : Binary64 :=
  if digits = 0 then finite negative 0 (-1074)
  else
    let size : Int := digits.log2
    if 400 < size / 4 + exponent then infinite negative
    else if size / 3 + 1 + exponent < -400 then finite negative 0 (-1074)
    else
      let (a, b) := powerOfTen exponent
      ofRatio negative (digits * a) b

/-- Is it zero, of either sign? -/
def isZero : Binary64 → Bool
  | finite _ m _ => m == 0
  | _ => false

/-- The whole number that it equals, if there is one. -/
def toInt? : Binary64 → Option Int
  | finite negative m e =>
    let (a, b) := powerOfTwo e
    if (m * a) % b = 0 then
      let n : Int := (m * a / b : Nat)
      some (if negative then -n else n)
    else none
  | _ => none

/-- The fraction that a finite number is. -/
def ratio? : Binary64 → Option Rat
  | finite negative m e =>
    let (a, b) := powerOfTwo e
    let n : Int := (m * a : Nat)
    some (mkRat (if negative then -n else n) b)
  | _ => none

/-- The number with the other sign. -/
def neg : Binary64 → Binary64
  | finite s m e => finite (!s) m e
  | infinite s => infinite (!s)
  | nan => nan

/-- The product with a whole number. -/
def scale (x : Binary64) (n : Nat) : Binary64 :=
  match x with
  | finite s m e =>
    let (a, b) := powerOfTwo e
    ofRatio s (m * a * n) b
  | x => x

/-- The sum of two numbers of one sign; the sign of the second counts. -/
def addMagnitudes (x y : Binary64) : Binary64 :=
  match x, y with
  | finite _ m e, finite s m' e' =>
    let (a, b) := powerOfTwo e
    let (a', b') := powerOfTwo e'
    ofRatio s (m * a * b' + m' * a' * b) (b * b')
  | nan, _ => nan
  | _, nan => nan
  | infinite s, _ => infinite s
  | _, infinite s => infinite s

end Binary64

end RouteAssets
