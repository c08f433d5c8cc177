namespace HollowNode.Der

/-- A tag's class: universal (0), application (1), context-specific (2) or private (3). -/
structure Element where
  cls : Nat
  constructed : Bool
  number : Nat
  contents : List UInt8
deriving DecidableEq, Repr

/-- The number that bytes denote, the first being the most significant. -/
def natOf (bytes : List UInt8) : Nat := bytes.foldl (fun n b => n * 256 + b.toNat) 0

def bytesOf (n : Nat) : List UInt8 :=
  if _h : n = 0 then [] else bytesOf (n / 256) ++ [UInt8.ofNat (n % 256)]
termination_by n

def fixedBytes : (count : Nat) → Nat → List UInt8
  | 0, _ => []
  | count + 1, n => fixedBytes count (n / 256) ++ [UInt8.ofNat (n % 256)]

def takeExact (count : Nat) (bytes : List UInt8) : Option (List UInt8 × List UInt8) :=
  if count ≤ bytes.length then some (bytes.take count, bytes.drop count) else none

def longTag : (room acc : Nat) → List UInt8 → Option (Nat × List UInt8)
  | room + 1, acc, b :: rest =>
    let acc := acc * 128 + b.toNat % 128
    if b < 128 then some (acc, rest) else longTag room acc rest
  | _, _, _ => none

def strictLength : List UInt8 → Option (Nat × List UInt8)
  | 0x81 :: a :: rest => if a < 128 then none else some (a.toNat, rest)
  | 0x82 :: a :: b :: rest => if a = 0 then none else some (natOf [a, b], rest)
  | a :: rest => if a < 128 then some (a.toNat, rest) else none
  | [] => none

def tolerantLength : List UInt8 → Option (Nat × List UInt8)
  | [] => none
  | a :: rest =>
    if a < 128 then some (a.toNat, rest)
    else if a = 128 ∨ 136 < a then none
    else (takeExact (a.toNat - 128) rest).map fun (n, rest) => (natOf n, rest)

def withContents (tag : UInt8) (number : Nat) (length : Option (Nat × List UInt8)) :
    Option (Element × List UInt8) := do
  let (n, rest) ← length
  let (contents, rest) ← takeExact n rest
  return (⟨tag.toNat / 64, tag.toNat / 32 % 2 = 1, number, contents⟩, rest)

/-- The first element of some bytes and what follows it, read strictly. -/
def strict? : List UInt8 → Option (Element × List UInt8)
  | [] => none
  | t :: rest =>
    if t.toNat % 32 = 31 then none else withContents t (t.toNat % 32) (strictLength rest)

def tolerant? : List UInt8 → Option (Element × List UInt8)
  | [] => none
  | t :: rest =>
    if t.toNat % 32 = 31 then
      (longTag 4 0 rest).bind fun (number, rest) => withContents t number (tolerantLength rest)
    else withContents t (t.toNat % 32) (tolerantLength rest)

def boolean : Nat := 1
def integer : Nat := 2
def bitString : Nat := 3
def octetString : Nat := 4
def null : Nat := 5
def objectIdentifier : Nat := 6
def utf8String : Nat := 12
def sequence : Nat := 16
def set : Nat := 17
def utcTime : Nat := 23
def generalizedTime : Nat := 24

def lengthBytes (n : Nat) : List UInt8 :=
  if n < 128 then [UInt8.ofNat n]
  else
    let bytes := bytesOf n
    UInt8.ofNat (128 + bytes.length) :: bytes

def write (tag : Nat) (contents : List UInt8) : List UInt8 :=
  UInt8.ofNat tag :: lengthBytes contents.length ++ contents

def writeSequence (parts : List (List UInt8)) : List UInt8 := write 0x30 parts.flatten

def writeSet (parts : List (List UInt8)) : List UInt8 := write 0x31 parts.flatten

def writeBits (bytes : List UInt8) : List UInt8 := write bitString (0 :: bytes)

/-- A number that is not negative: a zero byte stands in front where the first bit is set. -/
def writeNat (n : Nat) : List UInt8 :=
  let bytes := bytesOf n
  write integer (if bytes.head?.any (· < 128) then bytes else 0 :: bytes)

end HollowNode.Der
