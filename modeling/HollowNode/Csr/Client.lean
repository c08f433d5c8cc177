import HollowNode.Api.SigningRequest
import HollowNode.Csr.Fault
import HollowNode.Csr.Request
import HollowNode.Kube.Http

namespace HollowNode.Csr

open Api Kube

def signingRequests : Resource := ⟨"certificates.k8s.io", "v1", "certificatesigningrequests"⟩

def objectName (unique : String) : String := "node-csr-" ++ unique

def submit (name : String) (r : SigningRequest) : Except Fault (Call Fault String) :=
  let object := CertificateSigningRequest.newJson name r.csrPem r.signerName r.usages
  ((create signingRequests none object CertificateSigningRequest.ofJson?).mapError Fault.kube).map
    (·.mapRead fun made => (made.mapError Fault.kube).map fun csr => csr.metadata.name.getD name)

/-- Whether a condition that holds ends a request, and how. -/
def refusal? (name : String) (c : CsrCondition) : Option Fault :=
  let reason := (c.message.or c.reason).getD "no reason given"
  let detail := s!"{name}: {reason}"
  if c.status ≠ "True" then none
  else match c.type with
    | "Denied" => some (.denied detail)
    | "Failed" => some (.failed detail)
    | _ => none

/-- The certificate in a status. A refusal counts for more than a certificate. -/
def certificateOf (name : String) (s : CsrStatus) : Except Fault (Option String) :=
  match (s.conditions.getD []).findSome? (refusal? name) with
  | some fault => .error fault
  | none =>
    match s.certificate.filter (!·.isEmpty) with
    | none => .ok none
    | some bytes =>
      match Text.Utf8.decode bytes with
      | .ok cs => .ok (some (String.ofList cs))
      | .error fault => .error (.api s!"{name}: certificate is not UTF-8: {fault.message}")

def certificateIn (name : String) (csr : Option CertificateSigningRequest) :
    Except Fault (Option String) :=
  match csr with
  | none => .error (.notFound name)
  | some csr => (csr.status.map (certificateOf name)).getD (.ok none)

def issuedCertificate (name : String) : Except Fault (Call Fault (Option String)) :=
  ((Kube.get signingRequests none name CertificateSigningRequest.ofJson?).mapError Fault.kube).map
    (·.mapRead fun found => (found.mapError Fault.kube) >>= certificateIn name)

end HollowNode.Csr
