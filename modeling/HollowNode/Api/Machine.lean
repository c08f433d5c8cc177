import HollowNode.Api.Metadata

namespace HollowNode.Api

open Json

def clusterApiGroup : String := "cluster.x-k8s.io"

def clusterNameLabel : String := "cluster.x-k8s.io/cluster-name"

structure ObjectReference where
  apiVersion : Option String := none
  kind : Option String := none
  name : String := ""
  ns : Option String := none
deriving DecidableEq, Repr

structure MachineBootstrap where
  configRef : Option ObjectReference := none
  dataSecretName : Option String := none
deriving DecidableEq, Repr

structure MachineSpec where
  clusterName : String := ""
  bootstrap : MachineBootstrap := {}
  infrastructureRef : ObjectReference := {}
  providerId : Option String := none
deriving DecidableEq, Repr

structure Machine where
  metadata : Metadata
  spec : MachineSpec
deriving Repr

namespace ObjectReference

def ofJson? (j : Json) : Option ObjectReference :=
  match record ["apiVersion", "kind", "name", "namespace"] j with
  | some [apiVersion, kind, name, ns] => do
    return ⟨← defaulted none (nullable text?) apiVersion, ← defaulted none (nullable text?) kind,
      ← defaulted "" text? name, ← defaulted none (nullable text?) ns⟩
  | _ => none

def toJson (r : ObjectReference) : Json :=
  .obj <| optional "apiVersion" .str r.apiVersion ++ optional "kind" .str r.kind ++
    [("name", .str r.name)] ++ optional "namespace" .str r.ns

end ObjectReference

namespace MachineBootstrap

def ofJson? (j : Json) : Option MachineBootstrap :=
  match record ["configRef", "dataSecretName"] j with
  | some [configRef, dataSecretName] => do
    return ⟨← defaulted none (nullable ObjectReference.ofJson?) configRef,
      ← defaulted none (nullable text?) dataSecretName⟩
  | _ => none

def toJson (b : MachineBootstrap) : Json :=
  .obj <| optional "configRef" ObjectReference.toJson b.configRef ++
    optional "dataSecretName" .str b.dataSecretName

end MachineBootstrap

namespace MachineSpec

def ofJson? (j : Json) : Option MachineSpec :=
  match record ["clusterName", "bootstrap", "infrastructureRef", "providerID"] j with
  | some [clusterName, bootstrap, infrastructureRef, providerId] => do
    return ⟨← defaulted "" text? clusterName, ← defaulted {} MachineBootstrap.ofJson? bootstrap,
      ← defaulted {} ObjectReference.ofJson? infrastructureRef,
      ← defaulted none (nullable text?) providerId⟩
  | _ => none

def toJson (s : MachineSpec) : Json :=
  .obj <| [("clusterName", .str s.clusterName), ("bootstrap", s.bootstrap.toJson),
    ("infrastructureRef", s.infrastructureRef.toJson)] ++ optional "providerID" .str s.providerId

end MachineSpec

namespace Machine

def apiVersion : String := "cluster.x-k8s.io/v1beta1"

def ofJson? (j : Json) : Option Machine :=
  match record ["metadata", "spec"] j with
  | some [some metadata, some spec] => do
    return ⟨← Metadata.ofJson? metadata, ← MachineSpec.ofJson? spec⟩
  | _ => none

def toJson (m : Machine) : Json :=
  .obj [("apiVersion", .str apiVersion), ("kind", .str "Machine"), ("metadata", m.metadata.toJson),
    ("spec", m.spec.toJson)]

/-- The cluster a machine belongs to: its label has the first word, then its specification. -/
def clusterName (m : Machine) : Option String :=
  match m.metadata.labels.bind (·.get? clusterNameLabel) with
  | some name => some name
  | none => if m.spec.clusterName.isEmpty then none else some m.spec.clusterName

/-- The namespace and name of the KubemarkMachine that a machine refers to as its infrastructure. -/
def infrastructure (m : Machine) : Option (String × String) :=
  let ref := m.spec.infrastructureRef
  if ref.kind ≠ some "KubemarkMachine" ∨ ref.name.isEmpty then none
  else (ref.ns.or m.metadata.ns).map (·, ref.name)

end Machine

end HollowNode.Api
