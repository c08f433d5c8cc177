import HollowNode.Key.Private

namespace HollowNode.Key

open Der

structure Pair where
  privatePem : String
  publicKey : List UInt8
  sign : List UInt8 → List UInt8

namespace Pair

def ofSeed (seed : List UInt8) : Pair where
  privatePem :=
    Pem.encode ⟨"PRIVATE KEY",
    writeSequence [writeNat 0, write 0x30 Private.ed25519Algorithm,
    write octetString (write octetString seed)]⟩
  publicKey := Edwards.publicKey seed
  sign := Edwards.signature seed

/-- The pair with a number, one after another. -/
def numbered (n : Nat) : Pair := ofSeed (Der.fixedBytes 32 (n + 1))

end Pair

end HollowNode.Key
