import HollowNode.Key.Modular
import HollowNode.Key.Sha512

namespace HollowNode.Key.Edwards

def p : Nat := Nat.pow 2 255 - 19

def d : Nat := 37095705934669439343138083508754565189542113879843219016388785533085940283555

/-- Four numbers that stand for x / z and y / z, with t / z as their product, on the curve -x² + y²
= 1 + dx²y². -/
structure Point where
  x : Nat
  y : Nat
  z : Nat
  t : Nat

def zero : Point := ⟨0, 1, 1, 0⟩

def base : Point :=
  let x := 15112221349535400772501151409588531511454012693041857206046113283949847762202
  let y := 46316835694926478169428394003475163141307993866256225615783033603165251855960
  ⟨x, y, 1, x * y % p⟩

def add (a b : Point) : Point :=
  let m := sub p a.y a.x * sub p b.y b.x % p
  let n := (a.y + a.x) * (b.y + b.x) % p
  let c := 2 * d * a.t % p * b.t % p
  let e := 2 * a.z * b.z % p
  let f := sub p e c
  let g := (e + c) % p
  let h := (n + m) % p
  let k := sub p n m
  ⟨k * f % p, g * h % p, f * g % p, k * h % p⟩

def multiple (a : Point) : List Bool → Point
  | [] => zero
  | b :: rest =>
    let high := multiple (add a a) rest
    if b then add a high else high

def natOfLow (bytes : List UInt8) : Nat := Der.natOf bytes.reverse

/-- The secret number that a seed stands for: half of its hash, with the outer bits set as
required. -/
def secret (seed : List UInt8) : Nat :=
  natOfLow ((Sha512.hash seed).take 32) % Nat.pow 2 254 / 8 * 8 + Nat.pow 2 254

/-- The bytes of y, lowest first, with the parity of x in the top bit. -/
def compressed (q : Point) : List UInt8 :=
  let i := inverse p q.z
  let x := q.x * i % p
  let y := q.y * i % p
  (Der.fixedBytes 32 (y + x % 2 * Nat.pow 2 255)).reverse

def publicPoint (n : Nat) : List UInt8 := compressed (multiple base (bits (bitLength n) n))

def publicKey (seed : List UInt8) : List UInt8 := publicPoint (secret seed)

def order : Nat := Nat.pow 2 252 + 27742317777372353535851937790883648493

def signature (seed message : List UInt8) : List UInt8 :=
  let nonce := natOfLow (Sha512.hash ((Sha512.hash seed).drop 32 ++ message)) % order
  let point := publicPoint nonce
  let challenge := natOfLow (Sha512.hash (point ++ publicKey seed ++ message)) % order
  point ++ (Der.fixedBytes 32 ((nonce + challenge * secret seed) % order)).reverse

end HollowNode.Key.Edwards
