import RouteAssets.Decimal.Binary64

/-!
# The shortest decimal text of a floating point number

The digits written are the fewest that read back as the same number, and of those the nearest to it.
They are found on decimal grids: for one digit, two digits, and so on, the two points of the grid
next to the number are tested against the interval of reals that round to it. The text is positional
from `10^-4` up to `10^16`, always with a point, and scientific with a signed exponent of at least
two digits elsewhere.
-/

namespace RouteAssets.Binary64

/-- A decimal `digits * 10 ^ exponent`. -/
structure Grid where
  digits : Nat
  exponent : Int
  deriving DecidableEq, Repr

/-- The number of decimal digits of a positive number. -/
def digitCount (n : Nat) : Nat := (Nat.toDigits 10 n).length

/-- For a positive fraction `v`, the exponent `p` with `10^(p-1) ≤ v < 10^p`. -/
def decimalExponent (num den : Nat) : Int :=
  if den ≤ num then digitCount (num / den)
  else
    -- `den / num` rounded up has `k` digits, so `10^(k-1) < den/num + 1` and the answer is near `1 - k`
    let k := digitCount (den / num)
    if den ≤ num * Nat.pow 10 (k - 1) then (2 : Int) - k else (1 : Int) - k

/-- The interval of reals that round to a positive number, as numerators over four times its
denominator: its lower and upper ends. -/
def roundingInterval (m : Nat) (e : Int) : Nat × Nat × Nat :=
  let (a, b) := powerOfTwo e
  let low := if m = Nat.pow 2 52 ∧ -1074 < e then 4 * m - 1 else 4 * m - 2
  (low * a, (4 * m + 2) * a, 4 * b)

/-- Does a grid point round to the number with the given interval? The ends belong to an interval
when the mantissa is even. -/
def Grid.inside (g : Grid) (even : Bool) (low high den : Nat) : Bool :=
  let (a, b) := powerOfTen g.exponent
  let x := g.digits * a * den
  let l := low * b
  let h := high * b
  if even then l ≤ x && x ≤ h else l < x && x < h

/-- The grid point with `n` digits that rounds to a positive number, if there is one: of two the
nearer, of two equally near the one with an even last digit. -/
def gridPoint? (m : Nat) (e : Int) (p : Int) (n : Nat) : Option Grid :=
  let (a, b) := powerOfTwo e
  let exponent := p - n
  let (c, d) := powerOfTen exponent
  let num := m * a * d
  let den := b * c
  let below := num / den
  let rest := num % den
  let (low, high, denominator) := roundingInterval m e
  let fits := fun digits => (Grid.mk digits exponent).inside (m % 2 == 0) low high denominator
  match fits below, fits (below + 1) with
  | true, true =>
    if 2 * rest < den || (2 * rest == den && below % 2 == 0) then some ⟨below, exponent⟩
    else some ⟨below + 1, exponent⟩
  | true, false => some ⟨below, exponent⟩
  | false, true => some ⟨below + 1, exponent⟩
  | false, false => none

/-- The shortest decimal that rounds to a positive number. Seventeen digits always suffice. -/
def shortest (m : Nat) (e : Int) : Grid :=
  let (a, b) := powerOfTwo e
  let p := decimalExponent (m * a) b
  ((List.range 17).findSome? fun n => gridPoint? m e p (n + 1)).getD ⟨m, e⟩

/-! ## Writing -/

/-- A list of zeros. -/
def zeros (n : Nat) : List Char := List.replicate n '0'

/-- The exponent part of a scientific text. -/
def exponentText (e : Int) : List Char :=
  let ds := Nat.toDigits 10 e.natAbs
  'e' :: (if e < 0 then '-' else '+') :: (zeros (2 - ds.length) ++ ds)

/-- The text of `0.ds * 10 ^ p`, for digits without trailing zeros. -/
def decimalText (ds : List Char) (p : Int) : List Char :=
  if -4 < p ∧ p ≤ 0 then '0' :: '.' :: (zeros p.natAbs ++ ds)
  else if 0 < p ∧ p ≤ 16 then
    let n := p.toNat
    if ds.length ≤ n then ds ++ zeros (n - ds.length) ++ ['.', '0']
    else ds.take n ++ '.' :: ds.drop n
  else
    match ds with
    | [d] => d :: exponentText (p - 1)
    | d :: rest => d :: '.' :: (rest ++ exponentText (p - 1))
    | [] => []

/-- The digits of a grid point without trailing zeros, and the exponent of the point in front of
them. -/
def Grid.digitsAndPoint (g : Grid) : List Char × Int :=
  let ds := Nat.toDigits 10 g.digits
  ((ds.reverse.dropWhile (· == '0')).reverse, g.exponent + ds.length)

/-- The text of a number. -/
def text : Binary64 → String
  | nan => "nan"
  | infinite negative => if negative then "-inf" else "inf"
  | finite negative m e =>
    let unsigned :=
      if m = 0 then ['0', '.', '0']
      else
        let (ds, p) := (shortest m e).digitsAndPoint
        decimalText ds p
    String.ofList (if negative then '-' :: unsigned else unsigned)

end RouteAssets.Binary64
