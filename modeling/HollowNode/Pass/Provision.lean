import HollowNode.Kubeconfig
import HollowNode.Pass.Program
import HollowNode.Settings
import HollowNode.Workload

namespace HollowNode.Pass

open Api Step

structure Dependencies where
  machine : KubemarkMachine
  owner : Machine
  token : String
  kubeconfig : String
  access : ClusterAccess

/-- The owner of a machine is the first owner that is a Machine of the Cluster API, whatever its
version. -/
def ownerName? (machine : KubemarkMachine) : Option String :=
  let isMachine (r : OwnerReference) :=
    r.kind = "Machine" && r.apiVersion.toList.takeWhile (· ≠ '/') = clusterApiGroup.toList
  ((machine.metadata.ownerReferences.getD []).find? isMachine).map (·.name)

/-- The machine itself, while there is something to do for it. -/
def pendingMachine (ns name : String) : Step KubemarkMachine := do
  let some machine ← orFail (← ask (.kubemarkMachine ns name))
    | ask (.release (Csr.objectKey ns name))
      finish .absent
  if machine.isReady then finish .alreadyReady
  return machine

/-- The owner, and the name of its cluster, whose infrastructure is ready. -/
def ownerOf (ns name : String) (machine : KubemarkMachine) : Step (Machine × String) := do
  let some ownerName := ownerName? machine
    | defer s!"Machine controller has not set the owner reference on {ns}/{name} yet"
  let some owner ← orFail (← ask (.machine ns ownerName))
    | defer s!"owner Machine {ns}/{ownerName} not found"
  let some clusterName := owner.clusterName
    | defer s!"Machine {ns}/{ownerName} has no cluster name"
  let some cluster ← orFail (← ask (.cluster ns clusterName))
    | defer s!"Cluster {ns}/{clusterName} not found"
  if !cluster.infrastructureReady then
    defer s!"Cluster {ns}/{clusterName} infrastructure is not ready yet"
  if owner.spec.bootstrap.dataSecretName.isNone then
    defer s!"bootstrap data secret of Machine {ns}/{ownerName} is not available yet"
  return (owner, clusterName)

def tokenOf (ns ownerName : String) (owner : Machine) : Step String := do
  let some ref := owner.spec.bootstrap.configRef
    | defer s!"Machine {ns}/{ownerName} has no bootstrap config reference"
  let configNs := ref.ns.getD ns
  let some config ← orFail (← ask (.kubeadmConfig configNs ref.name))
    | defer s!"KubeadmConfig {configNs}/{ref.name} not found"
  let some token := config.bootstrapToken
    | fail (.config (.noToken configNs ref.name))
  return token

def kubeconfigSecretKey : String := "value"

def kubeconfigSecretName (clusterName : String) : String := clusterName ++ "-kubeconfig"

def kubeconfigOf (ns clusterName : String) : Step String := do
  let secret := kubeconfigSecretName clusterName
  let some kubeconfig ← orFail (← ask (.secretValue ns secret kubeconfigSecretKey))
    | defer s!"workload kubeconfig secret {ns}/{secret} not found"
  return kubeconfig

def resolve (ns name : String) : Step Dependencies := do
  let machine ← pendingMachine ns name
  let (owner, clusterName) ← ownerOf ns name machine
  let token ← tokenOf ns ((ownerName? machine).getD "") owner
  let kubeconfig ← kubeconfigOf ns clusterName
  let access ← orFail ((ClusterAccess.ofText kubeconfig).mapError .config)
  return ⟨machine, owner, token, kubeconfig, access⟩

def identityFor (request : Csr.IdentityRequest) : Step Bootstrap.ClientIdentity := do
  let started ← ask .clock
  let answer ← ask (.bootstrap request)
  let elapsed := (← ask .clock) - started
  match answer with
  | .ok (.issued identity) =>
    ask (.observe "issued" elapsed)
    return identity
  | .ok (.pending retryAfter) =>
    ask (.observe "pending" elapsed)
    finish (.bootstrapPending retryAfter)
  | .error fault =>
    ask (.observe "failed" elapsed)
    fail (.bootstrap fault)

/-- Creates the two objects of a node. One that exists already is as good as created. -/
def create (settings : Settings) (name : String) (deps : Dependencies) (bundle : Workload.Bundle)
    (deployment : Deployment) : Step Unit := do
  orFail (← ask (.workload ⟨deps.kubeconfig, settings.remoteClientTimeout⟩))
  let _ ← orFail
    ((← ask (.createConfigMap bundle.configMap)).mapError (.create .identityBundle name))
  let _ ← orFail ((← ask (.createDeployment deployment)).mapError (.create .deployment name))

def report (ns name : String) (owner : Machine) : Step Unit := do
  let id := providerIdFor name
  let ownerNs := owner.metadata.ns.getD ns
  let ownerName := owner.metadata.nameAny
  orFail
    ((← ask (.setProviderId ownerNs ownerName id)).mapError (.report .machine ownerNs ownerName))
  orFail ((← ask (.markReady ns name id)).mapError (.report .kubemarkMachine ns name))

/-- One pass for a machine. Settings that cannot be written as flags are refused before a
certificate is asked for. -/
def provision (settings : Settings) (ns name : String) : Program Result := Step.toProgram do
  let deps ← resolve ns name
  let _ ← orFail ((Workload.arguments deps.machine).mapError .flag)
  let bootstrapKubeconfig := (Kubeconfig.withToken deps.access deps.token).write
  orFail (← ask (.csrClient ⟨bootstrapKubeconfig, settings.remoteClientTimeout⟩))
  let request := Csr.IdentityRequest.forNode ns name
  let identity ← identityFor request
  let kubeconfig := (Kubeconfig.withCertificate deps.access Workload.identityCertPath).write
  let bundle : Workload.Bundle := ⟨name, kubeconfig, identity.stackedPem⟩
  let deployment ← orFail
    ((Workload.deployment settings.kubemarkImage deps.machine bundle).mapError .flag)
  create settings name deps bundle deployment
  report ns name deps.owner
  ask (.release request.key)
  return .provisioned

end HollowNode.Pass
