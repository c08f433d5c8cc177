import HollowNode.Api.ConfigMap
import HollowNode.Api.Deployment
import HollowNode.Failure
import HollowNode.Kube.Http
import HollowNode.Pass.Program

namespace HollowNode.Kube.Workload

open Api Pass

def configMaps : Resource := ⟨"", "v1", "configmaps"⟩
def deployments : Resource := ⟨"apps", "v1", "deployments"⟩

def conflict : Nat := 409

def outcome {α : Type} : Except Fault α → Except Failure Creation
  | .ok _ => .ok .created
  | .error (.api message reason code) =>
    if code = conflict then .ok .alreadyExists else .error (.kube (.api message reason code))
  | .error fault => .error (.kube fault)

/-- Creates an object in its own namespace, which it has to have. -/
def make {α : Type} (r : Resource) (metadata : Metadata) (object : Json) (read : Json → Option α) :
    Except Failure (Call Failure Creation) :=
  match metadata.ns with
  | none => .error (.config .noNamespace)
  | some ns => ((create r (some ns) object read).mapError Failure.kube).map (·.mapRead outcome)

def configMap (m : ConfigMap) : Except Failure (Call Failure Creation) :=
  make configMaps m.metadata m.toJson ConfigMap.ofJson?

def deployment (d : Deployment) : Except Failure (Call Failure Creation) :=
  make deployments d.metadata d.toJson Deployment.ofJson?

end HollowNode.Kube.Workload
