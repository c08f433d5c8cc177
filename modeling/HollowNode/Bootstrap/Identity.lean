import HollowNode.Certificate
import HollowNode.Key.Private

namespace HollowNode.Bootstrap

inductive Unreadable
  | pem
  | noCertificate
  | certificate
  | key
deriving DecidableEq, Repr

/-- There is no pair yet, or a part of it cannot be read, or its certificate is not valid now. -/
inductive IdentityFault
  | noPair
  | unreadable (part : Unreadable)
  | notValid (notBefore notAfter : Moment)
deriving DecidableEq, Repr

def Unreadable.message : Unreadable → String
  | .pem => "failed to parse certificate PEM: malformed block"
  | .noCertificate => "no CERTIFICATE block in issued certificate"
  | .certificate => "failed to parse certificate: malformed certificate"
  | .key => "failed to parse private key: unsupported key"

def IdentityFault.message : IdentityFault → String
  | .noPair => "no certificate/key pair available yet"
  | .unreadable part => s!"certificate parsing error: {part.message}"
  | .notValid notBefore notAfter =>
    s!"certificate is not currently valid: valid from {notBefore.text} until {notAfter.text}"

def IdentityFault.kind : IdentityFault → String
  | .noPair => "no_cert_key"
  | .unreadable _ => "parse"
  | .notValid .. => "not_valid"

/-- The certificate is the leaf alone; it expires at `notAfter`, in seconds since
1970-01-01T00:00:00Z. -/
structure ClientIdentity where
  certificatePem : String
  privateKeyPem : String
  commonName : String
  notAfter : Int
deriving DecidableEq, Repr

namespace ClientIdentity

def certificateLabel : String := "CERTIFICATE"

def withLineEnd (s : String) : String := if s.toList.getLast? = some '\n' then s else s ++ "\n"

def leaf (certificatePem : String) : Except IdentityFault Pem.Block :=
  match Pem.blocks? certificatePem with
  | none => .error (.unreadable .pem)
  | some blocks =>
    match blocks.find? (·.label = certificateLabel) with
    | none => .error (.unreadable .noCertificate)
    | some block => .ok block

/-- The identity that a certificate and a key make at an instant, in milliseconds since
1970-01-01T00:00:00Z. -/
def ofPem (now : Nat) (certificatePem privateKeyPem : String) :
    Except IdentityFault ClientIdentity := do
  let block ← leaf certificatePem
  let some certificate := Certificate.ofDer? block.contents | .error (.unreadable .certificate)
  if !certificate.isValidAt now then .error (.notValid certificate.notBefore certificate.notAfter)
  else if (Key.Private.ofPem? privateKeyPem).isNone then .error (.unreadable .key)
  else return {
    certificatePem := Pem.encode ⟨certificateLabel, block.contents⟩
    privateKeyPem := withLineEnd privateKeyPem
    commonName := certificate.commonName
    notAfter := certificate.notAfter.seconds }

def stackedPem (i : ClientIdentity) : String := i.certificatePem ++ i.privateKeyPem

def summary (i : ClientIdentity) (quote : String → String := String.quote) : String :=
  s!"ClientIdentity \x7b common_name: {quote i.commonName}, not_after: {Calendar.timestampText i.notAfter}, .. \x7d"

def outlives (i : ClientIdentity) (now : Nat) : Bool := (now : Int) < i.notAfter * 1000

end ClientIdentity

end HollowNode.Bootstrap
