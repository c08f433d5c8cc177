import HollowNode.Base64
import HollowNode.Failure
import HollowNode.Text.Blank
import HollowNode.Yaml.Record
import HollowNode.Yaml.Writer

namespace HollowNode

structure ClusterConfig where
  server : String := ""
  authority : Option String := none
  authorityData : Option String := none
  skipsVerification : Bool := false
deriving DecidableEq, Repr, Inhabited

structure NamedCluster where
  name : String
  cluster : ClusterConfig := {}
deriving DecidableEq, Repr

structure UserConfig where
  clientCertificate : Option String := none
  clientKey : Option String := none
  token : Option String := none
deriving DecidableEq, Repr

structure NamedUser where
  name : String
  user : UserConfig := {}
deriving DecidableEq, Repr

structure ContextConfig where
  cluster : String := ""
  user : String := ""
  ns : Option String := none
deriving DecidableEq, Repr

structure NamedContext where
  name : String
  context : ContextConfig := {}
deriving DecidableEq, Repr

structure Kubeconfig where
  apiVersion : String := ""
  kind : String := ""
  clusters : List NamedCluster := []
  users : List NamedUser := []
  contexts : List NamedContext := []
  currentContext : String := ""
deriving DecidableEq, Repr

namespace Kubeconfig

open Yaml Yaml.Document

variable (d : Yaml.Document)

def clusterConfig? (n : Node) : Option ClusterConfig := do
  match ← d.record ["server", "certificate-authority", "certificate-authority-data",
    "insecure-skip-tls-verify"] n with
  | [server, authority, authorityData, skipsVerification] =>
    return ⟨← defaulted "" d.text? server, ← defaulted none (d.nullable d.text?) authority,
      ← defaulted none (d.nullable d.text?) authorityData,
        ← defaulted false d.flag? skipsVerification⟩
  | _ => none

def userConfig? (n : Node) : Option UserConfig := do
  match ← d.record ["client-certificate", "client-key", "token"] n with
  | [certificate, key, token] =>
    return ⟨← defaulted none (d.nullable d.text?) certificate,
      ← defaulted none (d.nullable d.text?) key, ← defaulted none (d.nullable d.text?) token⟩
  | _ => none

def contextConfig? (n : Node) : Option ContextConfig := do
  match ← d.record ["cluster", "user", "namespace"] n with
  | [cluster, user, ns] =>
    return ⟨← defaulted "" d.text? cluster, ← defaulted "" d.text? user,
      ← defaulted none (d.nullable d.text?) ns⟩
  | _ => none

def named? (field : String) (fallback : α) (read : Node → Option α) (n : Node) :
    Option (String × α) := do
  match ← d.record ["name", field] n with
  | [some name, value] => return (← d.text? name, ← defaulted fallback read value)
  | _ => none

def ofNode? (n : Node) : Option Kubeconfig := do
  match ← d.record ["apiVersion", "kind", "clusters", "users", "contexts", "current-context"] n with
  | [apiVersion, kind, clusters, users, contexts, currentContext] =>
    let cluster n := (named? d "cluster" {} (clusterConfig? d) n).map fun p =>
      (⟨p.1, p.2⟩ : NamedCluster)
    let user n := (named? d "user" {} (userConfig? d) n).map fun p => (⟨p.1, p.2⟩ : NamedUser)
    let context n := (named? d "context" {} (contextConfig? d) n).map fun p =>
      (⟨p.1, p.2⟩ : NamedContext)
    return {
      apiVersion := ← defaulted "" d.text? apiVersion
      kind := ← defaulted "" d.text? kind
      clusters := ← defaulted [] (d.list? cluster) clusters
      users := ← defaulted [] (d.list? user) users
      contexts := ← defaulted [] (d.list? context) contexts
      currentContext := ← defaulted "" d.text? currentContext }
  | _ => none

def ofText? (s : String) : Option Kubeconfig := do
  match ← Document.ofText? s with
  | [] => return {}
  | [d] => ofNode? d d.root
  | _ => none

/-- The cluster that the current context names, or the first one where no context is current. -/
def currentCluster (k : Kubeconfig) : Option NamedCluster :=
  match k.contexts.find? (·.name = k.currentContext) with
  | some c => k.clusters.find? (·.name = c.context.cluster)
  | none => k.clusters.head?

end Kubeconfig

/-- The way to the API server of a cluster: its address, and how its certificate is checked. -/
structure ClusterAccess where
  host : String := ""
  authorityFile : Option String := none
  authorityData : Option (List UInt8) := none
  insecure : Bool := false
deriving DecidableEq, Repr

namespace ClusterAccess

def ofCluster (c : NamedCluster) : Except ConfigFault ClusterAccess :=
  if c.cluster.server.isEmpty then .error (.noServer c.name)
  else
    let data := c.cluster.authorityData.mapM fun data =>
      (Base64.decodeText (Text.trimmed data.toList)).mapError ConfigFault.authorityData
    data.map fun data => ⟨c.cluster.server, c.cluster.authority, data, c.cluster.skipsVerification⟩

def ofKubeconfig (k : Kubeconfig) : Except ConfigFault ClusterAccess :=
  match k.currentCluster with
  | some c => ofCluster c
  | none => .error .noCluster

def ofText (s : String) : Except ConfigFault ClusterAccess :=
  match Kubeconfig.ofText? s with
  | some k => ofKubeconfig k
  | none => .error .unreadableKubeconfig

/-- A file with the authority's certificate is preferred to its contents. -/
def toCluster (a : ClusterAccess) : ClusterConfig :=
  let file := a.authorityFile.filter (· ≠ "")
  { server := a.host
    authority := file
    authorityData := if file.isSome then none else a.authorityData.map Base64.encodeText
    skipsVerification := a.insecure }

end ClusterAccess

namespace Kubeconfig

def clusterEntry : String := "default-cluster"
def userEntry : String := "default-auth"
def contextEntry : String := "default-context"

def single (a : ClusterAccess) (user : UserConfig) : Kubeconfig where
  apiVersion := "v1"
  kind := "Config"
  clusters := [⟨clusterEntry, a.toCluster⟩]
  users := [⟨userEntry, user⟩]
  contexts := [⟨contextEntry, ⟨clusterEntry, userEntry, some "default"⟩⟩]
  currentContext := contextEntry

/-- Client certificate and key are both in the file at `path`. -/
def withCertificate (a : ClusterAccess) (path : String) : Kubeconfig :=
  single a { clientCertificate := some path, clientKey := some path }

def withToken (a : ClusterAccess) (token : String) : Kubeconfig := single a { token := some token }

open Yaml.Value in
def toValue (k : Kubeconfig) : Yaml.Value :=
  let cluster (c : NamedCluster) : Yaml.Value :=
    .record [("name", .text c.name), ("cluster", .record <|
      [("server", .text c.cluster.server)] ++
      optional "certificate-authority" c.cluster.authority ++
      optional "certificate-authority-data" c.cluster.authorityData ++
      (if c.cluster.skipsVerification then [("insecure-skip-tls-verify", .bool true)] else []))]
  let user (u : NamedUser) : Yaml.Value :=
    .record [("name", .text u.name), ("user", .record <|
      optional "client-certificate" u.user.clientCertificate ++
      optional "client-key" u.user.clientKey ++ optional "token" u.user.token)]
  let context (c : NamedContext) : Yaml.Value :=
    .record [("name", .text c.name),
      ("context", .record <|
        [("cluster", .text c.context.cluster), ("user", .text c.context.user)] ++
        optional "namespace" c.context.ns)]
  .record [("apiVersion", .text k.apiVersion), ("kind", .text k.kind),
    ("clusters", .list (k.clusters.map cluster)), ("users", .list (k.users.map user)),
    ("contexts", .list (k.contexts.map context)), ("current-context", .text k.currentContext)]

def write (k : Kubeconfig) : String := k.toValue.write

end Kubeconfig

end HollowNode
