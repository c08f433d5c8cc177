namespace HollowNode.Key

def bits : (count : Nat) → Nat → List Bool
  | 0, _ => []
  | count + 1, n => (n % 2 = 1) :: bits count (n / 2)

def bitLength (n : Nat) : Nat := if n = 0 then 0 else n.log2 + 1

def sub (p a b : Nat) : Nat := (a + (p - b % p)) % p

def powBits (p base : Nat) : List Bool → Nat
  | [] => 1 % p
  | b :: rest =>
    let high := powBits p (base * base % p) rest
    if b then base * high % p else high

def pow (p base exponent : Nat) : Nat := powBits p (base % p) (bits (bitLength exponent) exponent)

def inverse (p a : Nat) : Nat := pow p a (p - 2)

end HollowNode.Key
