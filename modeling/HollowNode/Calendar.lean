import HollowNode.Text.Number
import HollowNode.Text.Blank

namespace HollowNode.Calendar

structure Date where
  year : Int
  month : Nat
  day : Nat
deriving DecidableEq, Repr

def isLeap (y : Int) : Bool := y % 4 = 0 && (y % 100 ≠ 0 || y % 400 = 0)

def daysInMonth (y : Int) (m : Nat) : Nat :=
  if m = 2 then (if isLeap y then 29 else 28)
  else if m = 4 ∨ m = 6 ∨ m = 9 ∨ m = 11 then 30
  else 31

def Date.isValid (d : Date) : Bool :=
  1 ≤ d.month && d.month ≤ 12 && 1 ≤ d.day && d.day ≤ daysInMonth d.year d.month

/-- The number of days from 1970-01-01 to a date of the Gregorian calendar, extended to all years. A
cycle has 146097 days and starts on the first of March. -/
def Date.days (d : Date) : Int :=
  let y := if d.month ≤ 2 then d.year - 1 else d.year
  let cycle := y / 400
  let yearOfCycle := y % 400
  let dayOfYear : Int := (153 * (((d.month + 9) % 12 : Nat) : Int) + 2) / 5 + d.day - 1
  let dayOfCycle := yearOfCycle * 365 + yearOfCycle / 4 - yearOfCycle / 100 + dayOfYear
  cycle * 146097 + dayOfCycle - 719468

def Date.ofDays (n : Int) : Date :=
  let z := n + 719468
  let cycle := z / 146097
  let dayOfCycle := z % 146097
  let yearOfCycle :=
    (dayOfCycle - dayOfCycle / 1460 + dayOfCycle / 36524 - dayOfCycle / 146096) / 365
  let dayOfYear := dayOfCycle - (365 * yearOfCycle + yearOfCycle / 4 - yearOfCycle / 100)
  let mp := ((5 * dayOfYear + 2) / 153).toNat
  let day := (dayOfYear - (153 * (mp : Int) + 2) / 5 + 1).toNat
  let month := if mp < 10 then mp + 3 else mp - 9
  let year := yearOfCycle + cycle * 400
  ⟨if month ≤ 2 then year + 1 else year, month, day⟩

def secondsPerDay : Int := 86400

/-- The instant of a date and a time of day, in seconds since 1970-01-01T00:00:00Z. -/
def seconds (d : Date) (hour minute second : Nat) : Int :=
  d.days * secondsPerDay + hour * 3600 + minute * 60 + second

def monthNames : List String :=
  ["Jan", "Feb", "Mar", "Apr", "May", "Jun", "Jul", "Aug", "Sep", "Oct", "Nov", "Dec"]

def monthName (m : Nat) : String := (monthNames[m - 1]?).getD ""

def integer (n : Int) : List Char :=
  match n with
  | .ofNat n => Text.digits n
  | .negSucc n => '-' :: Text.digits (n + 1)

def yearText (y : Int) : List Char :=
  if 0 ≤ y ∧ y ≤ 9999 then Text.padded 4 y.toNat
  else if y < 0 then '-' :: Text.padded 4 y.natAbs
  else '+' :: Text.padded 4 y.toNat

def timestampText (t : Int) : String :=
  let d := Date.ofDays (t / secondsPerDay)
  let s := (t % secondsPerDay).toNat
  String.ofList
    (yearText d.year ++ '-' :: Text.padded 2 d.month ++ '-' :: Text.padded 2 d.day ++ 'T' ::
      Text.padded 2 (s / 3600) ++ ':' :: Text.padded 2 (s / 60 % 60) ++ ':' ::
      Text.padded 2 (s % 60) ++ ['Z'])

def number? (cs : List Char) : Option Nat := Text.decimal? cs

/-- Minutes east of Greenwich, from `Z` or from a sign, hours and minutes. -/
def zone? : List Char → Option Int
  | ['Z'] | ['z'] => some 0
  | s :: a :: b :: ':' :: c :: [d] | s :: a :: b :: c :: [d] => do
    let h ← number? [a, b]
    let m ← number? [c, d]
    if 59 < m ∨ 23 < h then none
    if s = '+' then some (h * 60 + m : Int)
    else if s = '-' then some (-(h * 60 + m : Int)) else none
  | _ => none

/-- A fraction of a second is passed over. -/
def dropFraction : List Char → Option (List Char)
  | '.' :: c :: rest =>
    if (Text.digit? c).isSome then some (rest.dropWhile fun c => (Text.digit? c).isSome) else none
  | rest => some rest

def timestamp? (text : String) : Option Int :=
  match text.toList with
  | y1 :: y2 :: y3 :: y4 :: '-' :: m1 :: m2 :: '-' :: d1 :: d2 :: t ::
      h1 :: h2 :: ':' :: i1 :: i2 :: ':' :: s1 :: s2 :: rest => do
    if t ≠ 'T' ∧ t ≠ 't' ∧ t ≠ ' ' then none
    let date : Date := ⟨(← number? [y1, y2, y3, y4]), ← number? [m1, m2], ← number? [d1, d2]⟩
    let hour ← number? [h1, h2]
    let minute ← number? [i1, i2]
    let second ← number? [s1, s2]
    if !date.isValid ∨ 23 < hour ∨ 59 < minute ∨ 60 < second then none
    let offset ← zone? (Text.dropBlank (← dropFraction rest))
    return seconds date hour minute (min second 59) - offset * 60
  | _ => none

end HollowNode.Calendar
