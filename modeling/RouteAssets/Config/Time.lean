import RouteAssets.Json.Reader

/-!
# Dates and moments

A time is a date of the Gregorian calendar, and a moment on it if a clock time is given. The written
form puts a `T` between the two; the zone of a moment is its distance from universal time in minutes.
-/

namespace RouteAssets

/-- A clock time, with millionths of a second, and its zone if it has one. -/
structure Clock where
  hour : Nat
  minute : Nat
  second : Nat
  fraction : Nat
  zone : Option Int
  deriving DecidableEq, Repr

/-- A date, or a moment on it. -/
structure Time where
  year : Nat
  month : Nat
  day : Nat
  clock : Option Clock
  deriving DecidableEq, Repr

namespace Time

/-! ## The calendar -/

/-- Does the year have a leap day? -/
def isLeap (year : Nat) : Bool := year % 4 == 0 && (year % 100 != 0 || year % 400 == 0)

/-- The number of days of a month. -/
def daysIn (year month : Nat) : Nat :=
  if month == 2 then if isLeap year then 29 else 28
  else if month == 4 || month == 6 || month == 9 || month == 11 then 30
  else 31

/-- Is it a clock time of a day, in a zone less than a day away? -/
def isClockValid (c : Clock) : Bool :=
  c.hour < 24 && c.minute < 60 && c.second < 60 && (c.zone.getD 0).natAbs < 24 * 60

/-- Is it a time of the calendar? -/
def isValid (t : Time) : Bool :=
  1 ≤ t.year && 1 ≤ t.month && t.month ≤ 12 && 1 ≤ t.day && t.day ≤ daysIn t.year t.month &&
    t.clock.all isClockValid

/-! ## Writing -/

/-- A number with at least the given number of digits. -/
def padded (width n : Nat) : String :=
  let digits := Nat.toDigits 10 n
  String.ofList (List.replicate (width - digits.length) '0' ++ digits)

/-- The text of a zone. -/
def zoneText (minutes : Int) : String :=
  let n := minutes.natAbs
  (if minutes < 0 then "-" else "+") ++ padded 2 (n / 60) ++ ":" ++ padded 2 (n % 60)

/-- The text of a clock time. -/
def clockText (c : Clock) : String :=
  padded 2 c.hour ++ ":" ++ padded 2 c.minute ++ ":" ++ padded 2 c.second ++
    (if c.fraction == 0 then "" else "." ++ padded 6 c.fraction) ++
    (c.zone.map zoneText).getD ""

/-- The text of a time. -/
def text (t : Time) : String :=
  padded 4 t.year ++ "-" ++ padded 2 t.month ++ "-" ++ padded 2 t.day ++
    (t.clock.map ("T" ++ clockText ·)).getD ""

/-! ## Reading -/

/-- A number of `least` to `most` digits, and the text behind it. -/
def digits? (least most : Nat) (cs : List Char) : Option (Nat × List Char) :=
  let ds := (cs.take most).takeWhile Json.isDigit
  if ds.length < least then none else some (Json.digitsValue ds, cs.drop ds.length)

/-- The text behind a character. -/
def after? (c : Char) : List Char → Option (List Char)
  | x :: cs => if x == c then some cs else none
  | [] => none

/-- The text behind what separates a date from a clock time: a letter, or blanks. -/
def afterDate? : List Char → Option (List Char)
  | [] => none
  | c :: cs =>
    if c == 'T' || c == 't' then some cs
    else if c == ' ' || c == '\t' then some (cs.dropWhile fun c => c == ' ' || c == '\t')
    else none

/-- The millionths of a second that some digits behind a point denote. Further digits are cut
off. -/
def fractionOf (ds : List Char) : Nat :=
  let ds := ds.take 6
  Json.digitsValue ds * Nat.pow 10 (6 - ds.length)

/-- The millionths of a second, if a point is here, and the text behind them. -/
def fraction (cs : List Char) : Nat × List Char :=
  match cs with
  | '.' :: rest => (fractionOf (rest.takeWhile Json.isDigit), rest.dropWhile Json.isDigit)
  | _ => (0, cs)

/-- A zone up to the end of the text. -/
def zone? (cs : List Char) : Option (Option Int) :=
  match cs.dropWhile fun c => c == ' ' || c == '\t' with
  | [] => if cs.isEmpty then some none else none
  | ['Z'] => some (some 0)
  | sign :: rest =>
    if sign == '+' || sign == '-' then do
      let (hours, rest) ← digits? 1 2 rest
      let (minutes, rest) ← if rest.isEmpty then pure (0, rest) else digits? 2 2 (← after? ':' rest)
      let n : Int := 60 * hours + minutes
      if rest.isEmpty then some (some (if sign == '-' then -n else n)) else none
    else none

/-- A clock time up to the end of the text. -/
def clock? (cs : List Char) : Option Clock := do
  let (hour, cs) ← digits? 1 2 cs
  let (minute, cs) ← digits? 2 2 (← after? ':' cs)
  let (second, cs) ← digits? 2 2 (← after? ':' cs)
  let (fraction, cs) := fraction cs
  return { hour, minute, second, fraction, zone := ← zone? cs }

/-- The time that a text denotes, which need not be one of the calendar. -/
def ofChars? (cs : List Char) : Option Time := do
  let (year, cs) ← digits? 4 4 cs
  let (month, cs) ← digits? 1 2 (← after? '-' cs)
  let (day, cs) ← digits? 1 2 (← after? '-' cs)
  if cs.isEmpty then return { year, month, day, clock := none }
  return { year, month, day, clock := some (← clock? (← afterDate? cs)) }

end Time

end RouteAssets
