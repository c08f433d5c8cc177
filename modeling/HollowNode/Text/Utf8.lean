namespace HollowNode.Text.Utf8

inductive Fault
  | invalid (length index : Nat)
  | incomplete (index : Nat)
deriving DecidableEq, Repr

def Fault.message : Fault → String
  | .invalid length index => s!"invalid utf-8 sequence of {length} bytes from index {index}"
  | .incomplete index => s!"incomplete utf-8 byte sequence from index {index}"

def encode (cs : List Char) : List UInt8 := cs.flatMap String.utf8EncodeChar

def isTail (b : UInt8) : Bool := 0x80 ≤ b && b ≤ 0xBF

/-- How many bytes a character takes that starts with `b`; no character starts with the other
bytes. -/
def width (b : UInt8) : Nat :=
  if b ≤ 0x7F then 1
  else if 0xC2 ≤ b && b ≤ 0xDF then 2
  else if 0xE0 ≤ b && b ≤ 0xEF then 3
  else if 0xF0 ≤ b && b ≤ 0xF4 then 4
  else 0

/-- Whether `c` may follow the first byte `b`: no overlong form, no surrogate, nothing above
U+10FFFF. -/
def isSecond (b c : UInt8) : Bool :=
  if b = 0xE0 then 0xA0 ≤ c && c ≤ 0xBF
  else if b = 0xED then 0x80 ≤ c && c ≤ 0x9F
  else if b = 0xF0 then 0x90 ≤ c && c ≤ 0xBF
  else if b = 0xF4 then 0x80 ≤ c && c ≤ 0x8F
  else isTail c

def bits (b mask : UInt8) : Nat := (b &&& mask).toNat

def decodeFrom (index : Nat) : List UInt8 → Except Fault (List Char)
  | [] => .ok []
  | a :: bs =>
    match width a, bs with
    | 1, bs => (decodeFrom (index + 1) bs).map (Char.ofNat a.toNat :: ·)
    | 2, b :: bs =>
      if isTail b then
        (decodeFrom (index + 2) bs).map (Char.ofNat (bits a 0x1F * 64 + bits b 0x3F) :: ·)
      else .error (.invalid 1 index)
    | 3, b :: c :: bs =>
      if !isSecond a b then .error (.invalid 1 index)
      else if !isTail c then .error (.invalid 2 index)
      else
        (decodeFrom (index + 3) bs).map
          (Char.ofNat ((bits a 0x0F * 64 + bits b 0x3F) * 64 + bits c 0x3F) :: ·)
    | 4, b :: c :: d :: bs =>
      if !isSecond a b then .error (.invalid 1 index)
      else if !isTail c then .error (.invalid 2 index)
      else if !isTail d then .error (.invalid 3 index)
      else
        (decodeFrom (index + 4) bs).map
          (Char.ofNat
            (((bits a 0x07 * 64 + bits b 0x3F) * 64 + bits c 0x3F) * 64 + bits d 0x3F) :: ·)
    | 0, _ => .error (.invalid 1 index)
    | _, [] => .error (.incomplete index)
    | _, b :: [] => if isSecond a b then .error (.incomplete index) else .error (.invalid 1 index)
    | _, b :: c :: _ =>
      if !isSecond a b then .error (.invalid 1 index)
      else if !isTail c then .error (.invalid 2 index)
      else .error (.incomplete index)

def decode (bytes : List UInt8) : Except Fault (List Char) := decodeFrom 0 bytes

end HollowNode.Text.Utf8
