namespace HollowNode.Text

def digit? (c : Char) : Option Nat :=
  if '0' ≤ c ∧ c ≤ '9' then some (c.toNat - '0'.toNat) else none

def decimalFrom (acc : Nat) : List Char → Option Nat
  | [] => some acc
  | c :: cs => (digit? c).bind fun d => decimalFrom (acc * 10 + d) cs

def decimal? : List Char → Option Nat
  | [] => none
  | cs => decimalFrom 0 cs

/-- A number of at most `limit`, written in decimal digits, possibly after a plus sign. -/
def bounded? (limit : Nat) (cs : List Char) : Option Nat :=
  let digits := match cs with
    | '+' :: ds => ds
    | ds => ds
  (decimal? digits).filter (· ≤ limit)

def limit16 : Nat := Nat.pow 2 16 - 1

def limit64 : Nat := Nat.pow 2 64 - 1

def hexDigit? (c : Char) : Option Nat :=
  if '0' ≤ c ∧ c ≤ '9' then some (c.toNat - '0'.toNat)
  else if 'a' ≤ c ∧ c ≤ 'f' then some (c.toNat - 'a'.toNat + 10)
  else if 'A' ≤ c ∧ c ≤ 'F' then some (c.toNat - 'A'.toNat + 10)
  else none

def digitsFrom (digit : Char → Option Nat) (base acc : Nat) : List Char → Option Nat
  | [] => some acc
  | c :: cs => (digit c).bind fun d => digitsFrom digit base (acc * base + d) cs

def digits (n : Nat) : List Char := Nat.toDigits 10 n

def padded (width n : Nat) : List Char :=
  let ds := digits n
  List.replicate (width - ds.length) '0' ++ ds

end HollowNode.Text
