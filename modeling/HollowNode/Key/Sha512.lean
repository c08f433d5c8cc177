import HollowNode.Der

namespace HollowNode.Key.Sha512

def root (exponent n : Nat) : (bit acc : Nat) → Nat
  | 0, acc => acc
  | bit + 1, acc =>
    let candidate := acc + Nat.pow 2 bit
    root exponent n bit (if Nat.pow candidate exponent ≤ n then candidate else acc)

def isPrime (n : Nat) : Bool := 2 ≤ n && (List.range n).all fun d => d < 2 || n % d ≠ 0

def primes : List Nat := (List.range 410).filter isPrime

def rootBits (exponent p : Nat) : UInt64 :=
  UInt64.ofNat (root exponent (p * Nat.pow 2 (64 * exponent)) 72 0 % Nat.pow 2 64)

def start : List UInt64 := (primes.take 8).map (rootBits 2)

def constants : List UInt64 := primes.map (rootBits 3)

def rotate (x : UInt64) (n : UInt64) : UInt64 := (x >>> n) ||| (x <<< (64 - n))

/-- The words that follow the last sixteen, which stand in `window`, the oldest first. -/
def schedule : (count : Nat) → (window : List UInt64) → List UInt64
  | 0, _ => []
  | count + 1, window =>
    let at' (i : Nat) := window.getD i 0
    let a := at' 1
    let b := at' 14
    let w := at' 0 + (rotate a 1 ^^^ rotate a 8 ^^^ (a >>> 7)) + at' 9 +
      (rotate b 19 ^^^ rotate b 61 ^^^ (b >>> 6))
    w :: schedule count (window.drop 1 ++ [w])

def round (state : List UInt64) (constantAndWord : UInt64 × UInt64) : List UInt64 :=
  match state with
  | [a, b, c, d, e, f, g, h] =>
    let t := h + (rotate e 14 ^^^ rotate e 18 ^^^ rotate e 41) + ((e &&& f) ^^^ (~~~e &&& g)) +
      constantAndWord.1 + constantAndWord.2
    let u := (rotate a 28 ^^^ rotate a 34 ^^^ rotate a 39) + ((a &&& b) ^^^ (a &&& c) ^^^ (b &&& c))
    [t + u, a, b, c, d + t, e, f, g]
  | other => other

def word (bytes : List UInt8) : UInt64 := UInt64.ofNat (Der.natOf bytes)

def groups (size : Nat) : (room : Nat) → List α → List (List α)
  | 0, _ => []
  | room + 1, xs => if xs.length < size then [] else xs.take size :: groups size room (xs.drop size)

def block (state : List UInt64) (bytes : List UInt8) : List UInt64 :=
  let words := (groups 8 16 bytes).map word
  let final := (constants.zip (words ++ schedule 64 words)).foldl round state
  List.zipWith (· + ·) state final

/-- The message, a one bit, zeros and the length in bits fill whole blocks of 128 bytes. -/
def padded (bytes : List UInt8) : List UInt8 :=
  let n := bytes.length
  bytes ++ 0x80 :: List.replicate ((239 - n % 128) % 128) 0 ++ Der.fixedBytes 16 (8 * n)

def hash (bytes : List UInt8) : List UInt8 :=
  let message := padded bytes
  let final := (groups 128 message.length message).foldl block start
  final.flatMap fun w => Der.fixedBytes 8 w.toNat

end HollowNode.Key.Sha512
