import HollowNode.Key.Curve
import HollowNode.Key.Edwards
import HollowNode.Key.Rsa
import HollowNode.Pem

namespace HollowNode.Key

open Der

inductive Private
  | ed25519 (seed : List UInt8)
  | p256 (secret : Nat)
  | p384 (secret : Nat)
  | rsa (numbers : Rsa)
deriving DecidableEq, Repr

namespace Private

def item (constructed : Bool) (cls number : Nat) (bytes : List UInt8) :
    Option (List UInt8 × List UInt8) := do
  let (e, rest) ← strict? bytes
  if e.constructed = constructed ∧ e.cls = cls ∧ e.number = number then some (e.contents, rest)
  else none

def whole (bytes : List UInt8) : Option (List UInt8) := do
  let (contents, rest) ← item true 0 sequence bytes
  if rest.isEmpty then some contents else none

def number (bytes : List UInt8) : Option (Nat × List UInt8) := do
  let (contents, rest) ← item false 0 integer bytes
  match contents with
  | [] => none
  | [b] => if b < 128 then some (b.toNat, rest) else none
  | a :: b :: _ => if 128 ≤ a ∨ a = 0 ∧ b < 128 then none else some (natOf contents, rest)

def positive (bytes : List UInt8) : Option (Nat × List UInt8) := do
  let (n, rest) ← number bytes
  if n = 0 then none else some (n, rest)

def wholeBits (contents : List UInt8) : Option (List UInt8) :=
  match contents with
  | 0 :: bytes => some bytes
  | _ => none

def bitsIn (bytes : List UInt8) : Option (List UInt8) := do
  let (contents, rest) ← item false 0 bitString bytes
  if rest.isEmpty then wholeBits contents else none

/-- The parts of a key: version, algorithm, key and what follows attributes. -/
structure Envelope where
  version : Nat
  algorithm : List UInt8
  key : List UInt8
  rest : List UInt8

def envelope? (der : List UInt8) : Option Envelope := do
  let contents ← whole der
  let (version, bytes) ← number contents
  let (algorithm, bytes) ← item true 0 sequence bytes
  let (key, bytes) ← item false 0 octetString bytes
  let rest := match item true 2 0 bytes with
    | some (_, rest) => rest
    | none => bytes
  return ⟨version, algorithm, key, rest⟩

/-- The public key after the seed, in either of the two tags that are in use for it. -/
def attachedKey (bytes : List UInt8) : Option (List UInt8) :=
  match item true 2 1 bytes with
  | some (contents, rest) => if rest.isEmpty then bitsIn contents else none
  | none => do
    let (contents, rest) ← item false 2 1 bytes
    if rest.isEmpty then wholeBits contents else none

def ed25519Algorithm : List UInt8 := [0x06, 0x03, 0x2b, 0x65, 0x70]

def ed25519? (e : Envelope) : Option Private := do
  if e.algorithm ≠ ed25519Algorithm then none
  else
    let (seed, rest) ← item false 0 octetString e.key
    if !rest.isEmpty ∨ seed.length ≠ 32 then none
    else if e.version = 0 then if e.rest.isEmpty then some (.ed25519 seed) else none
    else if e.version = 1 then
      if (← attachedKey e.rest) = Edwards.publicKey seed then some (.ed25519 seed) else none
    else none

def curveOid : List UInt8 := [0x06, 0x07, 0x2a, 0x86, 0x48, 0xce, 0x3d, 0x02, 0x01]
def p256Oid : List UInt8 := [0x06, 0x08, 0x2a, 0x86, 0x48, 0xce, 0x3d, 0x03, 0x01, 0x07]
def p384Oid : List UInt8 := [0x06, 0x05, 0x2b, 0x81, 0x04, 0x00, 0x22]

/-- The secret number of a key on a curve, if the public point beside it is the right one. -/
def onCurve (c : Curve) (oid : List UInt8) (e : Envelope) : Option Nat := do
  if e.version ≠ 0 ∨ !e.rest.isEmpty ∨ e.algorithm ≠ curveOid ++ oid then none
  else
    let (version, bytes) ← number (← whole e.key)
    let (secret, bytes) ← item false 0 octetString bytes
    let bytes ← match item true 2 0 bytes with
      | some (curve, rest) => if curve = oid then some rest else none
      | none => some bytes
    let (key, rest) ← item true 2 1 bytes
    let point ← bitsIn key
    let n := natOf secret
    if version ≠ 1 ∨ !rest.isEmpty ∨ secret.length ≠ c.width ∨ n = 0 ∨ c.order ≤ n then none
    else if point.length ≠ 1 + 2 * c.width ∨ point.head? ≠ some 4 then none
    else
      let x := natOf ((point.drop 1).take c.width)
      let y := natOf (point.drop (1 + c.width))
      if c.isPublic n x y then some n else none

def rsaAlgorithm : List UInt8 :=
  [0x06, 0x09, 0x2a, 0x86, 0x48, 0x86, 0xf7, 0x0d, 0x01, 0x01, 0x01, 0x05, 0x00]

def rsa? (e : Envelope) : Option Private := do
  if e.version ≠ 0 ∨ !e.rest.isEmpty ∨ e.algorithm ≠ rsaAlgorithm then none
  else
    let (version, bytes) ← number (← whole e.key)
    let (modulus, bytes) ← positive bytes
    let (publicExponent, bytes) ← positive bytes
    let (privateExponent, bytes) ← positive bytes
    let (p, bytes) ← positive bytes
    let (q, bytes) ← positive bytes
    let (exponentP, bytes) ← positive bytes
    let (exponentQ, bytes) ← positive bytes
    let (coefficient, bytes) ← positive bytes
    let k : Rsa :=
      ⟨modulus, publicExponent, privateExponent, p, q, exponentP, exponentQ, coefficient⟩
    if version = 0 ∧ bytes.isEmpty ∧ k.isConsistent then some (.rsa k) else none

def looksRight : List UInt8 → Bool
  | 0x30 :: l :: rest =>
    match if l < 128 then rest else rest.drop (l.toNat - 128) with
    | 0x02 :: 0x01 :: _ :: 0x30 :: _ => true
    | _ => false
  | _ => false

def ofDer? (der : List UInt8) : Option Private := do
  if !looksRight der then none
  else
    let e ← envelope? der
    (ed25519? e).or <| ((onCurve .p256 p256Oid e).map .p256).or <|
      ((onCurve .p384 p384Oid e).map .p384).or <| rsa? e

/-- The key in the first block of a text, whatever the label of the block. -/
def ofPem? (s : String) : Option Private := do ofDer? (← Pem.first? s).contents

end Private

end HollowNode.Key
