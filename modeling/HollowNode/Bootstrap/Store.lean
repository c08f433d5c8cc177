import HollowNode.Bootstrap.Identity

namespace HollowNode.Bootstrap

structure Store where
  privateKeyPem : Option String := none
  certificatePem : Option String := none
deriving DecidableEq, Repr

namespace Store

/-- A certificate that was there belongs to an older key and is dropped. -/
def setPrivateKey (_ : Store) (pem : String) : Store := ⟨some pem, none⟩

def updateCertificate (s : Store) (pem : String) : Store := { s with certificatePem := some pem }

def clear (_ : Store) : Store := {}

def current (s : Store) (now : Nat) : Except IdentityFault ClientIdentity :=
  match s.certificatePem, s.privateKeyPem with
  | some certificate, some key => ClientIdentity.ofPem now certificate key
  | _, _ => .error .noPair

def summary (s : Store) : String :=
  s!"MemoryStore \x7b has_private_key: {s.privateKeyPem.isSome}, has_certificate: {s.certificatePem.isSome} \x7d"

end Store

end HollowNode.Bootstrap
