import HollowNode.Text.Utf8

namespace HollowNode.Base64

inductive Fault
  | symbol (byte : UInt8) (offset : Nat)
  | lastSymbol (byte : UInt8) (offset : Nat)
  | length (count : Nat)
  | padding
deriving DecidableEq, Repr

def Fault.message : Fault → String
  | .symbol byte offset => s!"Invalid symbol {byte.toNat}, offset {offset}."
  | .lastSymbol byte offset => s!"Invalid last symbol {byte.toNat}, offset {offset}."
  | .length count => s!"Invalid input length: {count}"
  | .padding => "Invalid padding"

def symbol (n : Nat) : Char :=
  if n < 26 then Char.ofNat ('A'.toNat + n)
  else if n < 52 then Char.ofNat ('a'.toNat + (n - 26))
  else if n < 62 then Char.ofNat ('0'.toNat + (n - 52))
  else if n = 62 then '+'
  else '/'

def value? (b : UInt8) : Option Nat :=
  let n := b.toNat
  if 65 ≤ n ∧ n ≤ 90 then some (n - 65)
  else if 97 ≤ n ∧ n ≤ 122 then some (n - 97 + 26)
  else if 48 ≤ n ∧ n ≤ 57 then some (n - 48 + 52)
  else if n = 43 then some 62
  else if n = 47 then some 63
  else none

def pad : UInt8 := 61

def encode : List UInt8 → List Char
  | [] => []
  | [a] => [symbol (a.toNat / 4), symbol (a.toNat % 4 * 16), '=', '=']
  | [a, b] =>
    [symbol (a.toNat / 4), symbol (a.toNat % 4 * 16 + b.toNat / 16), symbol (b.toNat % 16 * 4), '=']
  | a :: b :: c :: rest =>
    symbol (a.toNat / 4) :: symbol (a.toNat % 4 * 16 + b.toNat / 16) ::
      symbol (b.toNat % 16 * 4 + c.toNat / 64) :: symbol (c.toNat % 64) :: encode rest

def group (a b c d : Nat) : List UInt8 :=
  [UInt8.ofNat (a * 4 + b / 16), UInt8.ofNat (b % 16 * 16 + c / 4), UInt8.ofNat (c % 4 * 64 + d)]

def sextet (byte : UInt8) (offset : Nat) : Except Fault Nat :=
  match value? byte with
  | some n => .ok n
  | none => .error (.symbol byte offset)

/-- The symbols of the last group before its padding, and the number of padding characters. Padding
comes after two symbols at the earliest, and no symbol follows it. -/
def lastGroup (start : Nat) :
    List UInt8 → (index : Nat) → (symbols : List (UInt8 × Nat)) → (pads : Nat) →
      Except Fault (List (UInt8 × Nat) × Nat)
  | [], _, symbols, pads => .ok (symbols, pads)
  | b :: rest, index, symbols, pads =>
    if b = pad then
      if index < 2 then .error (.symbol b (start + index))
      else lastGroup start rest (index + 1) symbols (pads + 1)
    else if 0 < pads then .error (.symbol pad (start + index - pads))
    else
      match value? b with
      | none => .error (.symbol b (start + index))
      | some n => lastGroup start rest (index + 1) (symbols ++ [(b, n)]) pads

def decodeLast (start : Nat) (bytes : List UInt8) : Except Fault (List UInt8) := do
  let (symbols, pads) ← lastGroup start bytes 0 [] 0
  match symbols with
  | [] => .error (.length start)
  | [_] => .error (.length (start + 1))
  | (_, a) :: (y, b) :: rest =>
    if (pads + symbols.length) % 4 ≠ 0 then .error .padding
    else
      match rest with
      | [] =>
        if b % 16 ≠ 0 then .error (.lastSymbol y (start + 1))
        else .ok [UInt8.ofNat (a * 4 + b / 16)]
      | [(z, c)] =>
        if c % 4 ≠ 0 then .error (.lastSymbol z (start + 2))
        else .ok [UInt8.ofNat (a * 4 + b / 16), UInt8.ofNat (b % 16 * 16 + c / 4)]
      | (_, c) :: (_, d) :: _ => .ok (group a b c d)

/-- Reads group after group; what is left when `whole` groups are read is the last group. -/
def decodeGroups (whole start : Nat) (bytes : List UInt8) : Except Fault (List UInt8) :=
  match whole, bytes with
  | whole + 1, a :: b :: c :: d :: rest => do
    let bytes := group (← sextet a start) (← sextet b (start + 1)) (← sextet c (start + 2))
      (← sextet d (start + 3))
    return bytes ++ (← decodeGroups whole (start + 4) rest)
  | _, bytes => decodeLast start bytes

/-- A single byte after the last whole group that is no symbol is reported before anything else. -/
def decode (bytes : List UInt8) : Except Fault (List UInt8) :=
  let n := bytes.length
  if n = 0 then .ok []
  else
    match if n % 4 = 1 then bytes.getLast? else none with
    | some b =>
      if b ≠ pad ∧ value? b = none then .error (.symbol b (n - 1)) else decodeGroups (n / 4) 0 bytes
    | none => decodeGroups (if n % 4 = 0 then n / 4 - 1 else n / 4) 0 bytes

def encodeText (bytes : List UInt8) : String := String.ofList (encode bytes)

def decodeText (s : List Char) : Except Fault (List UInt8) := decode (Text.Utf8.encode s)

end HollowNode.Base64
