import HollowNode.Api.Metadata

namespace HollowNode.Api

open Json

structure CsrCondition where
  message : Option String := none
  reason : Option String := none
  status : String := ""
  type : String := ""
deriving DecidableEq, Repr

structure CsrStatus where
  certificate : Option (List UInt8) := none
  conditions : Option (List CsrCondition) := none
deriving DecidableEq, Repr

structure CertificateSigningRequest where
  metadata : Metadata := {}
  status : Option CsrStatus := none
deriving Repr

def CsrCondition.ofJson? (j : Json) : Option CsrCondition := do
  let fs ← lenient j
  let _ ← latest "lastTransitionTime" time? fs
  let _ ← latest "lastUpdateTime" time? fs
  return ⟨← latest "message" text? fs, ← latest "reason" text? fs,
    (← latest "status" text? fs).getD "", (← latest "type" text? fs).getD ""⟩

def CsrStatus.ofJson? (j : Json) : Option CsrStatus := do
  let fs ← lenient j
  return ⟨← latest "certificate" bytes? fs, ← latest "conditions" (list? CsrCondition.ofJson?) fs⟩

namespace CertificateSigningRequest

/-- The specification has to be well formed, and nothing of it is kept. -/
def checkSpec (j : Json) : Option Unit := do
  let fs ← lenient j
  let _ ← latest "expirationSeconds" int32? fs
  let _ ← latest "extra" (dict? (list? text?)) fs
  let _ ← latest "groups" (list? text?) fs
  let _ ← latest "request" bytes? fs
  let _ ← latest "signerName" text? fs
  let _ ← latest "uid" text? fs
  let _ ← latest "usages" (list? text?) fs
  let _ ← latest "username" text? fs
  return ()

def apiVersion : String := "certificates.k8s.io/v1"

def ofJson? (j : Json) : Option CertificateSigningRequest := do
  let fs ← ofKind apiVersion "CertificateSigningRequest" j
  let _ ← latest "spec" checkSpec fs
  return ⟨(← latest "metadata" Metadata.ofJson? fs).getD {}, ← latest "status" CsrStatus.ofJson? fs⟩

def newJson (name requestPem signerName : String) (usages : List String) : Json :=
  .obj [("apiVersion", .str apiVersion), ("kind", .str "CertificateSigningRequest"),
    ("metadata", ({ name := some name : Metadata }).toJson),
    ("spec", .obj [("request", ofBytes (Text.Utf8.encode requestPem.toList)),
      ("signerName", .str signerName), ("usages", ofTexts usages)])]

end CertificateSigningRequest

end HollowNode.Api
