import HollowNode.Certificate
import HollowNode.Key.Pair

namespace HollowNode.Csr

open Der

/-- The identity a node asks for. All requests with one key share one attempt to get a
certificate. -/
structure IdentityRequest where
  key : String
  commonName : String
  organization : String
deriving DecidableEq, Repr

def nodesOrganization : String := "system:nodes"

def objectKey (ns name : String) : String := s!"{ns}/{name}"

def IdentityRequest.forNode (ns name : String) : IdentityRequest :=
  ⟨objectKey ns name, s!"system:node:{name}", nodesOrganization⟩

def kubeletClientSigner : String := "kubernetes.io/kube-apiserver-client-kubelet"

def kubeletClientUsages : List String := ["digital signature", "key encipherment", "client auth"]

/-- A request in PEM, ready to be submitted to a signer. -/
structure SigningRequest where
  key : String
  commonName : String
  organization : String
  csrPem : String
  signerName : String
  usages : List String
deriving DecidableEq, Repr

def organizationOid : List UInt8 := [0x55, 0x04, 0x0a]

def attributeBytes (oid : List UInt8) (value : String) : List UInt8 :=
  writeSet [writeSequence [write objectIdentifier oid,
    write utf8String (Text.Utf8.encode value.toList)]]

def infoBytes (r : IdentityRequest) (pair : Key.Pair) : List UInt8 :=
  writeSequence [
    writeNat 0,
    writeSequence [attributeBytes Certificate.commonNameOid r.commonName,
      attributeBytes organizationOid r.organization],
    writeSequence [write 0x30 Key.Private.ed25519Algorithm, writeBits pair.publicKey],
    write 0xa0 []]

def label : String := "CERTIFICATE REQUEST"

def requestPem (r : IdentityRequest) (pair : Key.Pair) : String :=
  let info := infoBytes r pair
  Pem.encode ⟨label,
    writeSequence [info, write 0x30 Key.Private.ed25519Algorithm, writeBits (pair.sign info)]⟩

def SigningRequest.new (r : IdentityRequest) (pair : Key.Pair) : SigningRequest where
  key := r.key
  commonName := r.commonName
  organization := r.organization
  csrPem := requestPem r pair
  signerName := kubeletClientSigner
  usages := kubeletClientUsages

def subject? (der : List UInt8) : Option (List Attribute) := do
  let (contents, _) ← Certificate.expect sequence der
  let (info, _) ← Certificate.expect sequence contents
  let (_, info) ← Certificate.expect integer info
  let (subject, _) ← Certificate.name? info
  return subject

/-- The numbers of an object identifier: seven bits in a byte, the last byte of a number below
128. -/
def oidNumbers (acc : Nat) : List UInt8 → List Nat
  | [] => []
  | b :: rest =>
    let acc := acc * 128 + b.toNat % 128
    if b < 128 then acc :: oidNumbers 0 rest else oidNumbers acc rest

def oidText (oid : List UInt8) : String :=
  match oidNumbers 0 oid with
  | [] => ""
  | n :: rest =>
    let first := min (n / 40) 2
    String.intercalate "." ((first :: (n - 40 * first) :: rest).map toString)

end HollowNode.Csr
