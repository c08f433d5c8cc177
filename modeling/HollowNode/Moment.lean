import HollowNode.Calendar
import HollowNode.Text.Number

namespace HollowNode

/-- A local date and time and its offset from Greenwich, in minutes. -/
structure Moment where
  date : Calendar.Date
  hour : Nat
  minute : Nat
  second : Nat
  milli : Nat
  offset : Int
  fourDigits : Bool
deriving DecidableEq, Repr

namespace Moment

/-- Seconds since 1970-01-01T00:00:00Z, rounded down. -/
def seconds (m : Moment) : Int := Calendar.seconds m.date m.hour m.minute m.second - m.offset * 60

def millis (m : Moment) : Int := m.seconds * 1000 + m.milli

def sign (n : Int) : Char := if n < 0 then '-' else '+'

def text (m : Moment) : String :=
  let two := Text.padded 2
  let day := Text.digits m.date.day
  String.ofList <| (Calendar.monthName m.date.month).toList ++ ' ' ::
    List.replicate (2 - day.length) ' ' ++ day ++ ' ' :: two m.hour ++ ':' :: two m.minute ++ ':' ::
    two m.second ++ ' ' :: Calendar.integer m.date.year ++ ' ' :: sign m.offset ::
    two (m.offset.natAbs / 60) ++ ':' :: two (m.offset.natAbs % 60)

def two? (a b : Char) : Option Nat := Text.decimal? [a, b]

/-- The offset from Greenwich; a zone less than an hour from it counts as east of it. -/
def zone? : List Char → Option Int
  | ['Z'] => some 0
  | [s, a, b, c, d] => do
    let h ← two? a b
    let m ← two? c d
    if 25 < h ∨ 59 < m then none
    else if s = '+' ∨ s = '-' ∧ h = 0 then some (h * 60 + m : Int)
    else if s = '-' then some (-(h * 60 + m : Int))
    else none
  | _ => none

def checked (m : Moment) : Option Moment :=
  if m.date.isValid ∧ m.hour ≤ 23 ∧ m.minute ≤ 59 ∧ m.second ≤ 59 then some m else none

/-- Years from 1950 to 2049. Two characters in the place of the seconds that are no digits are
passed over. -/
def ofTwoDigits? : List Char → Option Moment
  | y1 :: y2 :: m1 :: m2 :: d1 :: d2 :: h1 :: h2 :: i1 :: i2 :: rest => do
    let year ← two? y1 y2
    let date : Calendar.Date :=
      ⟨(if 50 ≤ year then 1900 + year else 2000 + year : Nat), ← two? m1 m2, ← two? d1 d2⟩
    let (second, zone) := match rest with
      | s1 :: s2 :: zone => ((two? s1 s2).getD 0, zone)
      | zone => (0, zone)
    checked ⟨date, ← two? h1 h2, ← two? i1 i2, second, 0, ← zone? zone, false⟩
  | _ => none

def fraction? : List Char → Option Nat
  | [] => some 0
  | '.' :: ds =>
    match ds.mapM Text.digit? with
    | some [] => some 0
    | some [a] => some (a * 100)
    | some [a, b] => some (a * 100 + b * 10)
    | some [a, b, c] => some (a * 100 + b * 10 + c)
    | _ => none
  | _ => none

def ofFourDigits? (cs : List Char) : Option Moment :=
  match cs with
  | y1 :: y2 :: y3 :: y4 :: m1 :: m2 :: d1 :: d2 :: h1 :: h2 :: i1 :: i2 :: s1 :: s2 :: rest => do
    let year ← Text.decimal? [y1, y2, y3, y4]
    if rest.getLast? ≠ some 'Z' then none
    else checked ⟨⟨year, ← two? m1 m2, ← two? d1 d2⟩, ← two? h1 h2, ← two? i1 i2, ← two? s1 s2,
      ← fraction? rest.dropLast, 0, true⟩
  | _ => none

end Moment

end HollowNode
