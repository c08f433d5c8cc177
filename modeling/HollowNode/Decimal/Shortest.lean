namespace HollowNode.Decimal

/-- A number of double precision that is not negative: a multiple of 2 ^ (scale - 1074). -/
structure Binary where
  mantissa : Nat
  scale : Nat
deriving DecidableEq, Repr

def Binary.ofFloat (x : Float) : Binary :=
  let bits := x.toBits.toNat
  let fraction := bits % Nat.pow 2 52
  match bits / Nat.pow 2 52 % Nat.pow 2 11 with
  | 0 => ⟨fraction, 0⟩
  | exponent + 1 => ⟨fraction + Nat.pow 2 52, exponent⟩

/-- Lengths are counted in units of 10 ^ (-324) * 2 ^ (-1076), of which all bounds below are
multiples. -/
def Binary.quarter (b : Binary) : Nat := Nat.pow 2 b.scale * Nat.pow 10 324

def Binary.value (b : Binary) : Nat := 4 * b.mantissa * b.quarter

def Binary.low (b : Binary) : Nat :=
  b.value - (if b.mantissa = Nat.pow 2 52 ∧ 0 < b.scale then 1 else 2) * b.quarter

def Binary.high (b : Binary) : Nat := b.value + 2 * b.quarter

/-- Whether a length reads back as the number; a length halfway between two goes to the even one. -/
def Binary.holds (b : Binary) (x : Nat) : Bool :=
  if b.mantissa % 2 = 0 then b.low ≤ x && x ≤ b.high else b.low < x && x < b.high

def step (place : Nat) : Nat := Nat.pow 10 place * Nat.pow 2 1076

def Binary.onGrid? (b : Binary) (place : Nat) : Option Nat :=
  let size := step place
  let below := b.value / size
  match b.holds (below * size), b.holds ((below + 1) * size) with
  | true, true => if b.value - below * size ≤ (below + 1) * size - b.value then some below
      else some (below + 1)
  | true, false => some below
  | false, true => some (below + 1)
  | false, false => none

/-- The coarsest grid with a hit, among those up to a place. -/
def Binary.shortest (b : Binary) : Nat → Nat × Nat
  | 0 => ((b.onGrid? 0).getD 0, 0)
  | place + 1 =>
    match b.onGrid? (place + 1) with
    | some digits => (digits, place + 1)
    | none => b.shortest place

def withPoint (digits : List Char) (places : Nat) : List Char :=
  let padded := List.replicate (places + 1 - digits.length) '0' ++ digits
  padded.take (padded.length - places) ++ '.' :: padded.drop (padded.length - places)

def text (x : Float) : String :=
  let b := Binary.ofFloat x
  if b.mantissa = 0 then "0"
  else
    let (digits, place) := b.shortest 633
    let shown := Nat.toDigits 10 digits
    String.ofList (if 324 ≤ place then shown ++ List.replicate (place - 324) '0'
      else withPoint shown (324 - place))

end HollowNode.Decimal
