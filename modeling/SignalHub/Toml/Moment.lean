import SignalHub.Toml.Text
/-!
# Dates and times in TOML

A moment is a date, a time of day, or both; a date with a time may say how far the clock is from
universal time. It is kept as text in normal form: a `T` between date and time, `Z` for universal
time, at most nine places of a second and no zeros at their end.

A moment that stands alone in a text may have the hour 24, and its clock may be up to a day from
universal time, however that is put into hours and minutes.

Results:
* `readMoment?`: a moment, if one begins here.
* `momentOf?`: the moment that a text is.
-/
namespace SignalHub.Toml

/-- The number that two digits spell, if it is between `low` and `high`. -/
def twoDigits? (low high : Nat) (a b : Char) : Option Nat :=
  if a.isDigit && b.isDigit then
    let n := (a.toNat - '0'.toNat) * 10 + (b.toNat - '0'.toNat)
    if low ≤ n ∧ n ≤ high then some n else none
  else none

/-- How many days a month has. -/
def daysIn (year month : Nat) : Nat :=
  if month = 2 then
    if year % 4 = 0 ∧ (year % 100 ≠ 0 ∨ year % 400 = 0) then 29 else 28
  else if month = 4 ∨ month = 6 ∨ month = 9 ∨ month = 11 then 30
  else 31

/-- The places of a second, if there are any, in normal form. -/
def readPlaces : List Char → List Char × List Char
  | '.' :: c :: rest =>
    if c.isDigit then
      let digits := (c :: rest).takeWhile Char.isDigit
      let kept := ((digits.take 9).reverse.dropWhile (· == '0')).reverse
      (if kept.isEmpty then [] else '.' :: kept, (c :: rest).dropWhile Char.isDigit)
    else ([], '.' :: c :: rest)
  | cs => ([], cs)

/-- A time of day, up to an hour. -/
def readTimeUpTo (lastHour : Nat) : Reader (List Char)
  | a :: b :: ':' :: c :: d :: ':' :: e :: f :: rest =>
    match twoDigits? 0 lastHour a b, twoDigits? 0 59 c d, twoDigits? 0 60 e f with
    | some _, some _, some _ =>
      let (places, rest) := readPlaces rest
      .ok ([a, b, ':', c, d, ':', e, f] ++ places, rest)
    | _, _, _ => .error .unexpected
  | _ => .error .unexpected

/-- A time of day. -/
def readTime : Reader (List Char) := readTimeUpTo 23

/-- How far a clock is from universal time, if that is said. -/
def readOffset : Reader (List Char)
  | 'Z' :: rest => .ok (['Z'], rest)
  | 'z' :: rest => .ok (['Z'], rest)
  | s :: rest =>
    if s = '+' ∨ s = '-' then
      match rest with
      | a :: b :: ':' :: c :: d :: rest =>
        match twoDigits? 0 23 a b, twoDigits? 0 59 c d with
        | some h, some m => .ok ([if h = 0 ∧ m = 0 then '+' else s, a, b, ':', c, d], rest)
        | _, _ => .error .unexpected
      | _ => .error .unexpected
    else .ok ([], s :: rest)
  | [] => .ok ([], [])

/-- Whether a character may stand between a date and its time. -/
def isJoint (c : Char) : Bool := c == 'T' || c == 't' || c == ' '

/-- Whether a time follows a date. -/
def joinsTime : List Char → Bool
  | j :: a :: b :: ':' :: _ => isJoint j && a.isDigit && b.isDigit
  | _ => false

/-- A day, which begins with a year. -/
def readDay (y1 y2 y3 y4 : Char) : Reader (List Char)
  | m1 :: m2 :: '-' :: d1 :: d2 :: rest =>
    match twoDigits? 0 99 y1 y2, twoDigits? 0 99 y3 y4, twoDigits? 1 12 m1 m2 with
    | some century, some year, some month =>
      match twoDigits? 1 (daysIn (century * 100 + year) month) d1 d2 with
      | some _ => .ok ([y1, y2, y3, y4, '-', m1, m2, '-', d1, d2], rest)
      | none => .error .unexpected
    | _, _, _ => .error .unexpected
  | _ => .error .unexpected

/-- A date, which begins with a year, and a time if one follows. -/
def readDate (y1 y2 y3 y4 : Char) : Reader (List Char) := fun cs => do
  let (date, rest) ← readDay y1 y2 y3 y4 cs
  if joinsTime rest then do
    let (time, rest) ← readTime (rest.drop 1)
    let (offset, rest) ← readOffset rest
    pure (date ++ 'T' :: time ++ offset, rest)
  else pure (date, rest)

/-- A moment, if one begins here. -/
def readMoment? : List Char → Option (Except Fault (String × List Char))
  | a :: b :: ':' :: rest =>
    if a.isDigit && b.isDigit then some (asText (readTime (a :: b :: ':' :: rest))) else none
  | a :: b :: c :: d :: '-' :: rest =>
    if [a, b, c, d].all Char.isDigit then some (asText (readDate a b c d rest)) else none
  | _ => none

/-- Two digits of a number below a hundred. -/
def twoDigits (n : Nat) : List Char :=
  [Char.ofNat ('0'.toNat + n / 10 % 10), Char.ofNat ('0'.toNat + n % 10)]

/-- How many minutes a day has. -/
def minutesPerDay : Nat := 1440

/-- How far a clock is from universal time, in a text that ends with it. -/
def lastOffset? : List Char → Option (List Char)
  | [] => some []
  | ['Z'] => some ['Z']
  | ['z'] => some ['Z']
  | [s, a, b, ':', c, d] => do
    let hours ← twoDigits? 0 99 a b
    let minutes ← twoDigits? 0 99 c d
    let total := hours * 60 + minutes
    if (s = '+' ∨ s = '-') ∧ total ≤ minutesPerDay then
      pure ((if total = 0 then '+' else s) :: twoDigits (total / 60) ++
        ':' :: twoDigits (total % 60))
    else none
  | _ => none

/-- A time of day in a text that ends with it. -/
def lastTime? (cs : List Char) : Option (List Char) :=
  match readTimeUpTo 24 cs with
  | .ok (time, []) => some time
  | _ => none

/-- A date in a text that ends with it or with its time. -/
def lastDate? : List Char → Option (List Char)
  | a :: b :: c :: d :: '-' :: rest =>
    match readDay a b c d rest with
    | .ok (date, []) => some date
    | .ok (date, j :: rest) =>
      match isJoint j, readTimeUpTo 24 rest with
      | true, .ok (time, rest) => (lastOffset? rest).map fun offset => date ++ 'T' :: time ++ offset
      | _, _ => none
    | .error _ => none
  | _ => none

/-- The moment that a text is, in normal form. -/
def momentOf? (s : String) : Option String :=
  let cs := s.toList
  (if cs[2]? = some ':' then lastTime? cs else lastDate? cs).map String.ofList

end SignalHub.Toml
