import HollowNode.Key.Modular

namespace HollowNode.Key

structure Rsa where
  modulus : Nat
  publicExponent : Nat
  privateExponent : Nat
  p : Nat
  q : Nat
  exponentP : Nat
  exponentQ : Nat
  coefficient : Nat
deriving DecidableEq, Repr

namespace Rsa

/-- The factors are taken in descending order; the coefficient is then known for that order only. -/
def isConsistent (k : Rsa) : Bool :=
  let half := (bitLength k.modulus + 1) / 2
  let swapped := k.p ≤ k.q
  let (p, dp, q, dq) := if swapped then (k.q, k.exponentQ, k.p, k.exponentP)
    else (k.p, k.exponentP, k.q, k.exponentQ)
  let n := bitLength k.modulus
  2041 ≤ n && n ≤ 4096 && k.modulus % 2 = 1 &&
    65537 ≤ k.publicExponent && k.publicExponent < Nat.pow 2 33 && k.publicExponent % 2 = 1 &&
    bitLength p = half && bitLength q = half && p * q = k.modulus && half % 512 = 0 && p ≠ q &&
    half < bitLength k.privateExponent && k.privateExponent < k.modulus &&
      k.privateExponent % 2 = 1 &&
    p % 2 = 1 && q % 2 = 1 && dp < p && dp % 2 = 1 && dq < q && dq % 2 = 1 &&
    (swapped || k.coefficient < p && k.coefficient * q % p = 1)

end Rsa

end HollowNode.Key
