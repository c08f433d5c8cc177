import HollowNode.Pass.Program
import HollowNode.Watch

namespace HollowNode.Simulation

open Api Pass

/-- Objects by namespace and name. -/
abbrev Table (α : Type) := List ((String × String) × α)

namespace Table

variable {α : Type}

def get? (t : Table α) (ns name : String) : Option α := (t.find? (·.1 = (ns, name))).map (·.2)

def erase (t : Table α) (ns name : String) : Table α := t.filter (·.1 ≠ (ns, name))

def put (t : Table α) (ns name : String) (a : α) : Table α :=
  if (t.get? ns name).isSome then t.map fun e => if e.1 = (ns, name) then (e.1, a) else e
  else t ++ [((ns, name), a)]

end Table

structure World where
  kubemarkMachines : Table KubemarkMachine := []
  machines : Table Machine := []
  clusters : Table Cluster := []
  kubeadmConfigs : Table KubeadmConfig := []
  secrets : Table (Dict String) := []
  configMaps : Dict Unit := {}
  deployments : Dict Unit := {}
  failures : Dict Failure := {}
deriving Repr

def method : Query → String
  | .kubemarkMachine .. => "kubemark_machine"
  | .machine .. => "machine"
  | .cluster .. => "cluster"
  | .kubeadmConfig .. => "kubeadm_config"
  | .secretValue .. => "secret_value"
  | .csrClient _ => "csr_client"
  | .workload _ => "workload"
  | .createConfigMap _ => "create_config_map"
  | .createDeployment _ => "create_deployment"
  | .setProviderId .. => "set_machine_provider_id"
  | .markReady .. => "mark_ready"
  | .bootstrap _ => "bootstrap"
  | .clock => "clock"
  | .observe .. => "observe"
  | .release _ => "release"

/-- Whether a question goes to a cluster and not to the controller itself. -/
def isForeign : Query → Bool
  | .bootstrap _ | .clock | .observe .. | .release _ => false
  | _ => true

namespace World

def create (existing : Dict Unit) (m : Metadata) : Creation × Dict Unit :=
  let name := m.name.getD ""
  if (existing.get? name).isSome then (.alreadyExists, existing)
  else (.created, existing.insert name ())

def respond (w : World) : (q : Query) → q.Answer × World
  | .kubemarkMachine ns name => (.ok (w.kubemarkMachines.get? ns name), w)
  | .machine ns name => (.ok (w.machines.get? ns name), w)
  | .cluster ns name => (.ok (w.clusters.get? ns name), w)
  | .kubeadmConfig ns name => (.ok (w.kubeadmConfigs.get? ns name), w)
  | .secretValue ns name key => (.ok ((w.secrets.get? ns name).bind (·.get? key)), w)
  | .csrClient _ | .workload _ => (.ok (), w)
  | .createConfigMap m =>
    let (creation, configMaps) := create w.configMaps m.metadata
    (.ok creation, { w with configMaps })
  | .createDeployment d =>
    let (creation, deployments) := create w.deployments d.metadata
    (.ok creation, { w with deployments })
  | .setProviderId ns name id =>
    match w.machines.get? ns name with
    | some m =>
      let m := { m with spec := { m.spec with providerId := some id } }
      (.ok (), { w with machines := w.machines.put ns name m })
    | none => (.error (.statusUpdate s!"Machine {ns}/{name} not found"), w)
  | .markReady ns name id =>
    match w.kubemarkMachines.get? ns name with
    | some m =>
      (.ok (),
        { w with
          kubemarkMachines := w.kubemarkMachines.put ns name { m with
            status := some ⟨true, some id⟩ } })
    | none => (.error (.statusUpdate s!"KubemarkMachine {ns}/{name} not found"), w)
  | .bootstrap request => (.error (.cancelled request.key), w)
  | .clock => (0, w)
  | .observe .. | .release _ => ((), w)

def failing (f : Failure) : (q : Query) → Option q.Answer
  | .kubemarkMachine .. => some (.error f)
  | .machine .. => some (.error f)
  | .cluster .. => some (.error f)
  | .kubeadmConfig .. => some (.error f)
  | .secretValue .. => some (.error f)
  | .csrClient _ => some (.error f)
  | .workload _ => some (.error f)
  | .createConfigMap _ => some (.error f)
  | .createDeployment _ => some (.error f)
  | .setProviderId .. => some (.error f)
  | .markReady .. => some (.error f)
  | .bootstrap _ | .clock | .observe .. | .release _ => none

def answer (w : World) (q : Query) : q.Answer × World :=
  match (w.failures.get? (method q)).bind (failing · q) with
  | some failure => (failure, w)
  | none => w.respond q

def targetsOf (w : World) (ns name : String) : List Watch.Target :=
  if (w.kubemarkMachines.get? ns name).isSome then [(ns, name)] else []

def ownerTargets (w : World) (ns name : String) : List Watch.Target :=
  ((w.machines.get? ns name).bind (·.infrastructure)).toList

/-- The passes that all objects call for when they are shown first. With a namespace only its
objects are shown. -/
def listed (w : World) (visible : String → Bool) : List Watch.Target :=
  ((w.kubemarkMachines.filter (visible ·.1.1)).map (·.1)) ++
    (w.machines.filter (visible ·.1.1)).filterMap (·.2.infrastructure)

/-- The passes that the answer to a question calls for, because it changes an object. -/
def noticed (before after : World) (visible : String → Bool) : Query → List Watch.Target
  | .setProviderId ns name _ =>
    let id (w : World) := (w.machines.get? ns name).bind (·.spec.providerId)
    if visible ns ∧ id before ≠ id after then after.ownerTargets ns name else []
  | .markReady ns name _ =>
    let status (w : World) := (w.kubemarkMachines.get? ns name).bind (·.status)
    if visible ns ∧ status before ≠ status after then after.targetsOf ns name else []
  | _ => []

def placeOf (m : Metadata) : String × String := (m.ns.getD "", m.nameAny)

def put? (w : World) (j : Json) : Option World := do
  let .str kind ← j.get? "kind" | none
  let text (name : String) := ((j.get? name).bind Json.text?).getD ""
  match kind with
  | "KubemarkMachine" =>
    let m ← KubemarkMachine.ofJson? j
    let (ns, name) := placeOf m.metadata
    return { w with kubemarkMachines := w.kubemarkMachines.put ns name m }
  | "Machine" =>
    let m ← Machine.ofJson? j
    let (ns, name) := placeOf m.metadata
    return { w with machines := w.machines.put ns name m }
  | "Cluster" =>
    let c ← Cluster.ofJson? j
    let (ns, name) := placeOf c.metadata
    return { w with clusters := w.clusters.put ns name c }
  | "KubeadmConfig" =>
    let c ← KubeadmConfig.ofJson? j
    let (ns, name) := placeOf c.metadata
    return { w with kubeadmConfigs := w.kubeadmConfigs.put ns name c }
  | "Secret" =>
    let data := ((j.get? "data").bind (Json.dict? Json.text?)).getD {}
    return { w with secrets := w.secrets.put (text "namespace") (text "name") data }
  | "ConfigMap" => return { w with configMaps := w.configMaps.insert (text "name") () }
  | "Deployment" => return { w with deployments := w.deployments.insert (text "name") () }
  | _ => none

def delete (w : World) (kind ns name : String) : World :=
  match kind with
  | "KubemarkMachine" => { w with kubemarkMachines := w.kubemarkMachines.erase ns name }
  | "Machine" => { w with machines := w.machines.erase ns name }
  | "Cluster" => { w with clusters := w.clusters.erase ns name }
  | "KubeadmConfig" => { w with kubeadmConfigs := w.kubeadmConfigs.erase ns name }
  | "Secret" => { w with secrets := w.secrets.erase ns name }
  | "ConfigMap" => { w with configMaps := w.configMaps.erase name }
  | "Deployment" => { w with deployments := w.deployments.erase name }
  | _ => w

def fail (w : World) (method : String) (f : Failure) : World :=
  { w with failures := w.failures.insert method f }

def recover (w : World) (method : String) : World := { w with failures := w.failures.erase method }

end World

end HollowNode.Simulation
