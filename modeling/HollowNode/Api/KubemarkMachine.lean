import HollowNode.Api.Metadata
import HollowNode.Taint

namespace HollowNode.Api

open Json

def providerIdPrefixText : String := "kubemark://"

/-- The provider ID of the node that a machine of this name becomes. -/
def providerIdFor (name : String) : String := providerIdPrefixText ++ name

structure KubemarkMachineSpec where
  extendedResources : Dict String := {}
  nodeLabels : Dict String := {}
  registerWithTaints : List Taint := []
deriving DecidableEq, Repr

structure KubemarkMachineStatus where
  ready : Bool
  providerId : Option String
deriving DecidableEq, Repr

structure KubemarkMachine where
  metadata : Metadata
  spec : KubemarkMachineSpec
  status : Option KubemarkMachineStatus
deriving Repr

/-- An effect is its name, or an object with its name as the only field and `null` as the value. -/
def effect? : Json → Option TaintEffect
  | .str s => TaintEffect.ofName? s
  | .obj [(s, .null)] => TaintEffect.ofName? s
  | _ => none

def taint? (j : Json) : Option Taint :=
  match record ["key", "value", "effect"] j with
  | some [some key, value, some effect] => do
    return ⟨← text? key, ← defaulted none (nullable text?) value, ← effect? effect⟩
  | _ => none

def taintJson (t : Taint) : Json :=
  .obj <| [("key", .str t.key)] ++ optional "value" .str t.value ++ [("effect", .str t.effect.name)]

def unlessEmpty (name : String) (isEmpty : Bool) (value : Json) : List (String × Json) :=
  if isEmpty then [] else [(name, value)]

namespace KubemarkMachineSpec

def ofJson? (j : Json) : Option KubemarkMachineSpec :=
  match record ["extendedResources", "nodeLabels", "registerWithTaints"] j with
  | some [resources, labels, taints] => do
    return ⟨← defaulted {} (dict? text?) resources, ← defaulted {} (dict? text?) labels,
      ← defaulted [] (list? taint?) taints⟩
  | _ => none

def toJson (s : KubemarkMachineSpec) : Json :=
  .obj <| unlessEmpty "extendedResources" s.extendedResources.isEmpty
    (ofDict .str s.extendedResources) ++ unlessEmpty "nodeLabels" s.nodeLabels.isEmpty
    (ofDict .str s.nodeLabels) ++ unlessEmpty "registerWithTaints" s.registerWithTaints.isEmpty
    (.arr (s.registerWithTaints.map taintJson))

end KubemarkMachineSpec

namespace KubemarkMachineStatus

def ofJson? (j : Json) : Option KubemarkMachineStatus :=
  match record ["ready", "providerID"] j with
  | some [ready, providerId] => do
    return ⟨← defaulted false flag? ready, ← defaulted none (nullable text?) providerId⟩
  | _ => none

def toJson (s : KubemarkMachineStatus) : Json :=
  .obj <| [("ready", .bool s.ready)] ++ optional "providerID" .str s.providerId

end KubemarkMachineStatus

namespace KubemarkMachine

def apiVersion : String := "infrastructure.cluster.x-k8s.io/v1alpha4"

def ofJson? (j : Json) : Option KubemarkMachine :=
  match record ["metadata", "spec", "status"] j with
  | some [some metadata, some spec, status] => do
    return ⟨← Metadata.ofJson? metadata, ← KubemarkMachineSpec.ofJson? spec,
      ← defaulted none (nullable KubemarkMachineStatus.ofJson?) status⟩
  | _ => none

def toJson (m : KubemarkMachine) : Json :=
  .obj <| [("apiVersion", .str apiVersion), ("kind", .str "KubemarkMachine"),
    ("metadata", m.metadata.toJson), ("spec", m.spec.toJson)] ++
    optional "status" KubemarkMachineStatus.toJson m.status

/-- Whether an earlier pass reported the machine ready. -/
def isReady (m : KubemarkMachine) : Bool := m.status.any (·.ready)

end KubemarkMachine

end HollowNode.Api
