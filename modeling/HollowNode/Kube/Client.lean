import HollowNode.Certificate
import HollowNode.Failure
import HollowNode.Kube.Uri
import HollowNode.Pem
import HollowNode.Yaml.Datum

namespace HollowNode.Kube

open Yaml Yaml.Datum

structure ClusterEntry where
  server : Option String
  authority : Option String
  authorityData : Option String
  proxy : Option String
deriving DecidableEq, Repr

structure UserEntry where
  username : Option String := none
  password : Option String := none
  token : Option String := none
  tokenFile : Option String := none
  runsProgram : Bool := false
deriving DecidableEq, Repr

structure ContextEntry where
  cluster : String
  user : Option String
deriving DecidableEq, Repr

/-- Entries by name, in order. -/
structure ClientConfig where
  apiVersion : Option String := none
  kind : Option String := none
  clusters : List (String × Option ClusterEntry) := []
  users : List (String × Option UserEntry) := []
  contexts : List (String × Option ContextEntry) := []
  currentContext : Option String := none
deriving DecidableEq, Repr

namespace ClientConfig

def extension? (d : Datum) : Option Unit := do
  let fs ← fields? d
  let _ ← required text? fs "name"
  let _ ← get? fs "extension"
  return ()

def checkExtensions (fs : List (String × Datum)) : Option Unit := do
  let _ ← optional (list? extension?) fs "extensions"
  return ()

def cluster? (d : Datum) : Option ClusterEntry := do
  let fs ← fields? d
  let _ ← optional bool? fs "insecure-skip-tls-verify"
  let _ ← optional bool? fs "disable-compression"
  let _ ← optional text? fs "tls-server-name"
  checkExtensions fs
  return ⟨← optional text? fs "server", ← optional text? fs "certificate-authority",
    ← optional text? fs "certificate-authority-data", ← optional text? fs "proxy-url"⟩

def user? (d : Datum) : Option UserEntry := do
  let fs ← fields? d
  let texts :=
    ["client-certificate", "client-certificate-data", "client-key", "client-key-data", "as"]
  let _ ← texts.mapM (optional text? fs)
  let _ ← optional (list? text?) fs "as-groups"
  let program ← optional fields? fs "exec"
  let provider ← optional fields? fs "auth-provider"
  return ⟨← optional text? fs "username", ← optional text? fs "password",
    ← optional text? fs "token", ← optional text? fs "tokenFile", program.isSome || provider.isSome⟩

def context? (d : Datum) : Option ContextEntry := do
  let fs ← fields? d
  let _ ← optional text? fs "namespace"
  checkExtensions fs
  return ⟨← required text? fs "cluster", ← optional text? fs "user"⟩

def named? {α : Type} (field : String) (read : Datum → Option α) (d : Datum) :
    Option (String × Option α) := do
  let fs ← fields? d
  return (← required text? fs "name", ← optional read fs field)

def ofDatum? (d : Datum) : Option ClientConfig := do
  let fs ← fields? d
  let preferences ← optional fields? fs "preferences"
  let _ ← optional bool? (preferences.getD []) "colors"
  checkExtensions (preferences.getD [])
  checkExtensions fs
  return {
    apiVersion := ← optional text? fs "apiVersion"
    kind := ← optional text? fs "kind"
    clusters := (← optional (list? (named? "cluster" cluster?)) fs "clusters").getD []
    users := (← optional (list? (named? "user" user?)) fs "users").getD []
    contexts := (← optional (list? (named? "context" context?)) fs "contexts").getD []
    currentContext := ← optional text? fs "current-context" }

def agree (a b : Option String) : Bool := a.isNone || b.isNone || a = b

def append {α : Type} (known new : List (String × α)) : List (String × α) :=
  known ++ new.filter fun p => !known.any (·.1 = p.1)

def merge? (a b : ClientConfig) : Option ClientConfig :=
  if agree a.kind b.kind && agree a.apiVersion b.apiVersion then
    some {
      apiVersion := a.apiVersion.or b.apiVersion
      kind := a.kind.or b.kind
      clusters := append a.clusters b.clusters
      users := append a.users b.users
      contexts := append a.contexts b.contexts
      currentContext := a.currentContext.or b.currentContext }
  else none

def ofText? (s : String) : Option ClientConfig := do
  let documents ← Document.ofText? s
  let configs ← documents.mapM fun d => (ofDocument? d).bind ofDatum?
  configs.foldlM merge? {}

def entry? {α : Type} (entries : List (String × Option α)) (name : String) : Option α :=
  (entries.find? (·.1 = name)).bind (·.2)

end ClientConfig

inductive Credential
  | anonymous
  | password (username password : String)
  | token (token : String)
deriving DecidableEq, Repr

/-- Without authorities those of the host are trusted. -/
structure Client where
  server : String
  authorities : Option (List Certificate)
  credential : Credential
deriving DecidableEq, Repr

namespace Client

/-- The credential of a user, of which several may be given; none where it has to be fetched from
elsewhere. -/
def credential? (u : UserEntry) : Option Credential :=
  match u.username, u.password, u.token with
  | some username, some password, _ => some (.password username password)
  | _, _, some token => some (.token token)
  | _, _, none => if u.tokenFile.isSome || u.runsProgram then none else some .anonymous

def asText (bytes : List UInt8) : String := String.ofList (bytes.map fun b => Char.ofNat b.toNat)

/-- The certificates that are trusted, in DER. The inner option is none where nothing is said of
them. -/
def authorities? (c : ClusterEntry) : Option (Option (List (List UInt8))) :=
  match c.authorityData, c.authority with
  | some data, _ =>
    match Base64.decodeText data.toList with
    | .ok bytes => (Pem.blocks? (asText bytes)).map fun blocks =>
        some ((blocks.filter (·.label = "CERTIFICATE")).map (·.contents))
    | .error _ => none
  | none, some _ => none
  | none, none => some none

/-- The cluster and the user of the current context. A user that is not there is nobody. -/
def parties? (k : ClientConfig) : Option (ClusterEntry × UserEntry) := do
  let context ← ClientConfig.entry? k.contexts (← k.currentContext)
  let cluster ← ClientConfig.entry? k.clusters context.cluster
  return (cluster, (context.user.bind (ClientConfig.entry? k.users)).getD {})

def ofKubeconfig (text : String) : Except Failure Client := do
  let some config := ClientConfig.ofText? text | .error (.config .invalidKubeconfig)
  let unusable : Failure := .config .unusableKubeconfig
  let some (cluster, user) := parties? config | .error unusable
  let some server := cluster.server.filter Uri.isAddress | .error unusable
  let some authorities := authorities? cluster | .error unusable
  let proxy := cluster.proxy.filter (· ≠ "")
  if proxy.any fun p => !Uri.isAddress p then .error unusable
  else if proxy.isSome then .error (.kube (.other "proxies are not supported"))
  else
    let some credential :=
      credential? user | .error (.kube (.other "the credential cannot be read"))
    let some certificates := authorities.mapM fun ders => ders.mapM Certificate.ofDer?
      | .error (.kube (.other "an authority cannot be trusted"))
    return ⟨server, certificates, credential⟩

end Client

end HollowNode.Kube
