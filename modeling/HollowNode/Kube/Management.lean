import HollowNode.Api.Cluster
import HollowNode.Api.ConfigMap
import HollowNode.Api.KubeadmConfig
import HollowNode.Api.KubemarkMachine
import HollowNode.Api.Machine
import HollowNode.Failure
import HollowNode.Kube.Http

namespace HollowNode.Kube.Management

open Api

def kubemarkMachines : Resource :=
  ⟨"infrastructure.cluster.x-k8s.io", "v1alpha4", "kubemarkmachines"⟩
def machines : Resource := ⟨clusterApiGroup, "v1beta1", "machines"⟩
def clusters : Resource := ⟨clusterApiGroup, "v1beta1", "clusters"⟩
def kubeadmConfigs : Resource := ⟨"bootstrap.cluster.x-k8s.io", "v1beta1", "kubeadmconfigs"⟩
def secrets : Resource := ⟨"", "v1", "secrets"⟩

abbrev Asking (α : Type) := Except Failure (Call Failure α)

def asking {α : Type} (c : Except Fault (Call Fault α)) : Asking α :=
  (c.mapError Failure.kube).map (·.mapRead (·.mapError Failure.kube))

def kubemarkMachine (ns name : String) : Asking (Option KubemarkMachine) :=
  asking (get kubemarkMachines (some ns) name KubemarkMachine.ofJson?)

def machine (ns name : String) : Asking (Option Machine) :=
  asking (get machines (some ns) name Machine.ofJson?)

def cluster (ns name : String) : Asking (Option Cluster) :=
  asking (get clusters (some ns) name Cluster.ofJson?)

def kubeadmConfig (ns name : String) : Asking (Option KubeadmConfig) :=
  asking (get kubeadmConfigs (some ns) name KubeadmConfig.ofJson?)

def valueOf (ns name key : String) (secret : Option Secret) : Except Failure (Option String) :=
  match (secret.bind (·.data)).bind (·.get? key) with
  | none => .ok none
  | some bytes =>
    match Text.Utf8.decode bytes with
    | .ok cs => .ok (some (String.ofList cs))
    | .error fault => .error (.config (.secretText ns name key fault))

def secretValue (ns name key : String) : Asking (Option String) :=
  (asking (get secrets (some ns) name Secret.ofJson?)).map (·.mapRead (· >>= valueOf ns name key))

def providerIdPatch (providerId : String) : Json :=
  .obj [("spec", .obj [("providerID", .str providerId)])]

def readyPatch (providerId : String) : Json :=
  .obj [("status", .obj [("ready", .bool true), ("providerID", .str providerId)])]

def done {ε α : Type} (r : Except ε α) : Except ε Unit := r.map fun _ => ()

def setProviderId (ns name providerId : String) : Asking Unit :=
  (asking (mergePatch machines (some ns) name "" (providerIdPatch providerId) Machine.ofJson?)).map
    (·.mapRead done)

def markReady (ns name providerId : String) : Asking Unit :=
  (asking (mergePatch kubemarkMachines (some ns) name "/status" (readyPatch providerId)
    KubemarkMachine.ofJson?)).map (·.mapRead done)

end HollowNode.Kube.Management
