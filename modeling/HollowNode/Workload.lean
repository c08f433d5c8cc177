import HollowNode.Api.ConfigMap
import HollowNode.Api.Deployment
import HollowNode.Api.KubemarkMachine
import HollowNode.Flag

namespace HollowNode.Workload

open Api

def systemNamespace : String := "kube-system"
def identityMountPath : String := "/kubeconfig"
def identityCertPath : String := "/kubeconfig/cert.pem"
def kubeconfigKey : String := "kubeconfig"
def certKey : String := "cert.pem"
def controlPlaneTaint : String := "node-role.kubernetes.io/control-plane"

/-- A kubeconfig, and the certificate and key it refers to, for one node. -/
structure Bundle where
  name : String
  kubeconfig : String
  certPem : String
deriving DecidableEq, Repr

def Bundle.configMap (b : Bundle) : ConfigMap where
  metadata := { name := some b.name, ns := some systemNamespace }
  data := some (Dict.ofList [(kubeconfigKey, b.kubeconfig), (certKey, b.certPem)])

def checkPairs (flag encoded : String) (m : Dict String) : Except Flag.Fault Unit := do
  if (← Flag.decode flag encoded) = m then return () else .error (.lossy flag)

def flagsOf (encoded : String) : List String := if encoded.isEmpty then [] else [encoded]

/-- The arguments of the program that a hollow node runs. Empty flags are left out. -/
def arguments (machine : KubemarkMachine) : Except Flag.Fault (List String) := do
  let spec := machine.spec
  let resources := Flag.encodeResources spec.extendedResources
  checkPairs Flag.extendedResources resources spec.extendedResources
  let labels := Flag.encodeLabels spec.nodeLabels
  checkPairs Flag.nodeLabels labels spec.nodeLabels
  let taints := Flag.encodeTaints spec.registerWithTaints
  let name := machine.metadata.nameAny
  if (← Flag.decodeTaints taints) ≠ spec.registerWithTaints then .error (.lossyTaints name)
  else return ["--v=3", "--morph=kubelet", "--log-file=/var/log/kubelet.log",
    "--logtostderr=false"] ++ flagsOf taints ++ [s!"--name={name}"] ++ flagsOf resources ++
    flagsOf labels

def deployment (image : String) (machine : KubemarkMachine) (bundle : Bundle) :
    Except Flag.Fault Deployment := do
  let name := machine.metadata.nameAny
  let labels := Dict.ofList [("app", name)]
  let container : Container := {
    name := "kubemark"
    image := some image
    command := some ["/kubemark"]
    args := some (← arguments machine)
    securityContext := some ⟨some true⟩
    volumeMounts := some [⟨identityMountPath, "kubeconfig"⟩] }
  return {
    metadata := { name := some name, ns := some systemNamespace, labels := some labels }
    spec := some {
      replicas := some 1
      matchLabels := some labels
      template := {
        metadata := some { labels := some labels }
        spec := some {
          containers := [container]
          tolerations := some [⟨some controlPlaneTaint, some "NoSchedule"⟩]
          volumes := some [⟨"kubeconfig", some bundle.name⟩] } } } }

end HollowNode.Workload
