import HollowNode.Api.Cluster
import HollowNode.Api.KubeadmConfig
import HollowNode.Api.KubemarkMachine
import HollowNode.Api.Machine
import HollowNode.Proofs.Json.Schema

namespace HollowNode

open Json

/-- Field after field: as a rule that `simp` tries before it looks into a record's reader, it does
not go over the rest of the reader again for every field. -/
theorem bind_eq_some_iff {α β : Type} {x : Option α} {f : α → Option β} {b : β} :
    (x >>= f) = some b ↔ ∃ a, x = some a ∧ f a = some b :=
  Option.bind_eq_some_iff

namespace Api

def timeFormat : Format Int := .plain time? timeJson rfl

def int64Format : Format Int := .plain int64? .int rfl

def anyFormat : Format Json :=
  .plain (fun j => match j with
    | .null => none
    | j => some j) id rfl

@[simp]
theorem timeFormat_read : timeFormat.read = time? := rfl

@[simp]
theorem timeFormat_write : timeFormat.write = timeJson := rfl

@[simp]
theorem int64Format_read : int64Format.read = int64? := rfl

@[simp]
theorem int64Format_write : int64Format.write = .int := rfl

@[simp]
theorem anyFormat_write : anyFormat.write = id := rfl

@[simp]
theorem latest_anyFormat (name : String) : latest name anyFormat.read = latest name some := by
  have same : nullable anyFormat.read = nullable some := by
    funext j
    cases j <;> rfl
  funext fs
  simp only [latest, same]

def OwnerReference.schema : Schema OwnerReference where
  header := []
  fields :=
    [.lastText "apiVersion" (·.apiVersion), .last "blockOwnerDeletion" .flag (·.blockOwnerDeletion),
    .last "controller" .flag (·.controller), .lastText "kind" (·.kind), .lastText "name" (·.name),
    .lastText "uid" (·.uid)]
  read := ofJson?
  write := toJson
  read_obj_iff fs s := by
    cases s
    rw [ofJson?]
    simp only [↓bind_eq_some_iff, lenient, Option.some.injEq, Option.pure_def, mk.injEq,
      ↓existsAndEq, true_and, exists_and_left, exists_eq_left', List.mem_cons, List.not_mem_nil,
      or_false, forall_eq_or_imp, Field.reads_lastText, Field.reads_last,
      Format.flag_read, forall_eq]
    constructor
    · rintro ⟨a, ha, block, controller, k, hk, n, hn, u, hu, apiVersion, kind, name, uid⟩
      exact ⟨⟨a, ha, apiVersion⟩, block, controller, ⟨k, hk, kind⟩, ⟨n, hn, name⟩, u, hu, uid⟩
    · rintro ⟨⟨a, ha, apiVersion⟩, block, controller, ⟨k, hk, kind⟩, ⟨n, hn, name⟩, u, hu, uid⟩
      exact ⟨a, ha, block, controller, k, hk, n, hn, u, hu, apiVersion, kind, name, uid⟩
  write_eq s := by simp [toJson]

@[simp]
theorem OwnerReference.schema_read : OwnerReference.schema.read = OwnerReference.ofJson? := rfl

@[simp]
theorem OwnerReference.schema_write : OwnerReference.schema.write = OwnerReference.toJson := rfl

def ManagedFields.schema : Schema ManagedFields where
  header := []
  fields := [.last "apiVersion" .text (·.apiVersion), .last "fieldsType" .text (·.fieldsType),
    .last "fieldsV1" anyFormat (·.fields), .last "manager" .text (·.manager),
      .last "operation" .text (·.operation),
    .last "subresource" .text (·.subresource), .last "time" timeFormat (·.time)]
  read := ofJson?
  write := toJson
  read_obj_iff fs s := by
    cases s
    rw [ofJson?]
    simp [lenient, ↓bind_eq_some_iff]
  write_eq s := by simp [toJson]

@[simp]
theorem ManagedFields.schema_read : ManagedFields.schema.read = ManagedFields.ofJson? := rfl

@[simp]
theorem ManagedFields.schema_write : ManagedFields.schema.write = ManagedFields.toJson := rfl

def Metadata.schema : Schema Metadata where
  header := []
  fields :=
    [.last "annotations" .texts (·.annotations),
    .last "creationTimestamp" timeFormat (·.creationTimestamp),
    .last "deletionGracePeriodSeconds" int64Format (·.deletionGracePeriodSeconds),
    .last "deletionTimestamp" timeFormat (·.deletionTimestamp),
    .last "finalizers" (.list .text) (·.finalizers), .last "generateName" .text (·.generateName),
    .last "generation" int64Format (·.generation), .last "labels" .texts (·.labels),
    .last "managedFields" (.list ManagedFields.schema.format) (·.managedFields),
    .last "name" .text (·.name), .last "namespace" .text (·.ns),
    .last "ownerReferences" (.list OwnerReference.schema.format) (·.ownerReferences),
    .last "resourceVersion" .text (·.resourceVersion), .last "selfLink" .text (·.selfLink),
    .last "uid" .text (·.uid)]
  read := ofJson?
  write := toJson
  read_obj_iff fs s := by
    cases s
    rw [ofJson?]
    simp [lenient, ↓bind_eq_some_iff]
  write_eq s := by simp [toJson]

@[simp]
theorem Metadata.schema_read : Metadata.schema.read = Metadata.ofJson? := rfl

@[simp]
theorem Metadata.schema_write : Metadata.schema.write = Metadata.toJson := rfl

def effectFormat : Format TaintEffect := .plain effect? (fun e => .str e.name) rfl

@[simp]
theorem effectFormat_read : effectFormat.read = effect? := rfl

@[simp]
theorem effectFormat_write : effectFormat.write = fun e => .str e.name := rfl

def taintSchema : Schema Taint where
  header := []
  fields := [.required "key" (·.key) .text, .perhaps "value" .text (·.value),
    .required "effect" (·.effect) effectFormat]
  read := taint?
  write := taintJson
  read_obj_iff fs s := by
    cases s
    rcases h₁ : single "key" fs with _ | _ | _ <;> cases h₂ : single "value" fs <;>
      rcases h₃ : single "effect" fs with _ | _ | _ <;>
      simp [taint?, record, h₁, h₂, h₃, Option.bind_eq_some_iff]
  write_eq s := by simp [taintJson]

@[simp]
theorem taintSchema_read : taintSchema.read = taint? := rfl

@[simp]
theorem taintSchema_write : taintSchema.write = taintJson := rfl

def KubemarkMachineSpec.schema : Schema KubemarkMachineSpec where
  header := []
  fields := [.unlessEmpty "extendedResources" (·.extendedResources) .texts Dict.isEmpty {},
    .unlessEmpty "nodeLabels" (·.nodeLabels) .texts Dict.isEmpty {},
    .unlessEmpty "registerWithTaints" (·.registerWithTaints)
      (.list taintSchema.format) List.isEmpty []]
  read := ofJson?
  write := toJson
  read_obj_iff fs s := by
    cases s
    cases h₁ : single "extendedResources" fs <;> cases h₂ : single "nodeLabels" fs <;>
      cases h₃ : single "registerWithTaints" fs <;>
      simp [ofJson?, record, h₁, h₂, h₃, Option.bind_eq_some_iff]
  write_eq s := by simp [toJson, unlessEmpty]

@[simp]
theorem KubemarkMachineSpec.schema_read :
    KubemarkMachineSpec.schema.read = KubemarkMachineSpec.ofJson? := rfl

@[simp]
theorem KubemarkMachineSpec.schema_write :
    KubemarkMachineSpec.schema.write = KubemarkMachineSpec.toJson := rfl

def KubemarkMachineStatus.schema : Schema KubemarkMachineStatus where
  header := []
  fields := [.preset "ready" (·.ready) .flag false, .perhaps "providerID" .text (·.providerId)]
  read := ofJson?
  write := toJson
  read_obj_iff fs s := by
    cases s
    cases h₁ : single "ready" fs <;> cases h₂ : single "providerID" fs <;>
      simp [ofJson?, record, h₁, h₂, Option.bind_eq_some_iff]
  write_eq s := by simp [toJson]

@[simp]
theorem KubemarkMachineStatus.schema_read :
    KubemarkMachineStatus.schema.read = KubemarkMachineStatus.ofJson? := rfl

@[simp]
theorem KubemarkMachineStatus.schema_write :
    KubemarkMachineStatus.schema.write = KubemarkMachineStatus.toJson := rfl

def KubemarkMachine.schema : Schema KubemarkMachine where
  header := [("apiVersion", apiVersion), ("kind", "KubemarkMachine")]
  fields := [.required "metadata" (·.metadata) Metadata.schema.format,
    .required "spec" (·.spec) KubemarkMachineSpec.schema.format,
    .perhaps "status" KubemarkMachineStatus.schema.format (·.status)]
  read := ofJson?
  write := toJson
  read_obj_iff fs s := by
    cases s
    rcases h₁ : single "metadata" fs with _ | _
      | _ <;> rcases h₂ : single "spec" fs with _ | _ | _ <;> cases h₃ : single "status" fs <;>
      simp [ofJson?, record, h₁, h₂, h₃, Option.bind_eq_some_iff]
  write_eq s := by simp [toJson]

def ObjectReference.schema : Schema ObjectReference where
  header := []
  fields := [.perhaps "apiVersion" .text (·.apiVersion), .perhaps "kind" .text (·.kind),
    .preset "name" (·.name) .text "",
    .perhaps "namespace" .text (·.ns)]
  read := ofJson?
  write := toJson
  read_obj_iff fs s := by
    cases s
    cases h₁ : single "apiVersion" fs <;> cases h₂ : single "kind" fs <;>
      cases h₃ : single "name" fs <;> cases h₄ : single "namespace" fs <;>
      simp [ofJson?, record, h₁, h₂, h₃, h₄, Option.bind_eq_some_iff]
  write_eq s := by simp [toJson]

@[simp]
theorem ObjectReference.schema_read : ObjectReference.schema.read = ObjectReference.ofJson? := rfl

@[simp]
theorem ObjectReference.schema_write : ObjectReference.schema.write = ObjectReference.toJson := rfl

def MachineBootstrap.schema : Schema MachineBootstrap where
  header := []
  fields := [.perhaps "configRef" ObjectReference.schema.format (·.configRef),
    .perhaps "dataSecretName" .text (·.dataSecretName)]
  read := ofJson?
  write := toJson
  read_obj_iff fs s := by
    cases s
    cases h₁ : single "configRef" fs <;> cases h₂ : single "dataSecretName" fs <;>
      simp [ofJson?, record, h₁, h₂, Option.bind_eq_some_iff]
  write_eq s := by simp [toJson]

@[simp]
theorem MachineBootstrap.schema_read : MachineBootstrap.schema.read = MachineBootstrap.ofJson? :=
  rfl

@[simp]
theorem MachineBootstrap.schema_write : MachineBootstrap.schema.write = MachineBootstrap.toJson :=
  rfl

def MachineSpec.schema : Schema MachineSpec where
  header := []
  fields := [.preset "clusterName" (·.clusterName) .text "",
    .preset "bootstrap" (·.bootstrap) MachineBootstrap.schema.format {},
    .preset "infrastructureRef" (·.infrastructureRef) ObjectReference.schema.format {},
    .perhaps "providerID" .text (·.providerId)]
  read := ofJson?
  write := toJson
  read_obj_iff fs s := by
    cases s
    cases h₁ : single "clusterName" fs <;> cases h₂ : single "bootstrap" fs <;>
      cases h₃ : single "infrastructureRef" fs <;> cases h₄ : single "providerID" fs <;>
      simp [ofJson?, record, h₁, h₂, h₃, h₄, Option.bind_eq_some_iff]
  write_eq s := by simp [toJson]

@[simp]
theorem MachineSpec.schema_read : MachineSpec.schema.read = MachineSpec.ofJson? := rfl

@[simp]
theorem MachineSpec.schema_write : MachineSpec.schema.write = MachineSpec.toJson := rfl

def Machine.schema : Schema Machine where
  header := [("apiVersion", apiVersion), ("kind", "Machine")]
  fields := [.required "metadata" (·.metadata) Metadata.schema.format,
    .required "spec" (·.spec) MachineSpec.schema.format]
  read := ofJson?
  write := toJson
  read_obj_iff fs s := by
    cases s
    rcases h₁ : single "metadata" fs with _ | _
      | _ <;> rcases h₂ : single "spec" fs with _ | _ | _ <;>
      simp [ofJson?, record, h₁, h₂, Option.bind_eq_some_iff]
  write_eq s := by simp [toJson]

def ClusterStatus.schema : Schema ClusterStatus where
  header := []
  fields := [.preset "infrastructureReady" (·.infrastructureReady) .flag false]
  read := ofJson?
  write := toJson
  read_obj_iff fs s := by
    cases s
    cases h₁ : single "infrastructureReady" fs <;>
      simp [ofJson?, record, h₁, Option.bind_eq_some_iff]
  write_eq s := by simp [toJson]

@[simp]
theorem ClusterStatus.schema_read : ClusterStatus.schema.read = ClusterStatus.ofJson? := rfl

@[simp]
theorem ClusterStatus.schema_write : ClusterStatus.schema.write = ClusterStatus.toJson := rfl

def clusterSpecSchema : Schema Unit where
  header := []
  fields := []
  read j := (record [] j).map fun _ => ()
  write _ := .obj []
  read_obj_iff fs s := by simp [record]
  write_eq s := by simp

@[simp]
theorem clusterSpecSchema_read : clusterSpecSchema.read = fun j => (record [] j).map fun _ => () :=
  rfl

@[simp]
theorem clusterSpecSchema_write : clusterSpecSchema.write = fun _ => .obj [] := rfl

def Cluster.schema : Schema Cluster where
  header := [("apiVersion", apiVersion), ("kind", "Cluster")]
  fields := [.required "metadata" (·.metadata) Metadata.schema.format,
    .required "spec" (fun _ => ()) clusterSpecSchema.format,
    .perhaps "status" ClusterStatus.schema.format (·.status)]
  read := ofJson?
  write := toJson
  read_obj_iff fs s := by
    cases s
    rcases h₁ : single "metadata" fs with _ | _
      | _ <;> rcases h₂ : single "spec" fs with _ | _ | _ <;> cases h₃ : single "status" fs <;>
      simp [ofJson?, record, h₁, h₂, h₃, Option.bind_eq_some_iff, and_left_comm]
  write_eq s := by simp [toJson]

def BootstrapToken.schema : Schema BootstrapToken where
  header := []
  fields := [.preset "token" (·.token) .text ""]
  read := ofJson?
  write := toJson
  read_obj_iff fs s := by
    cases s
    cases h₁ : single "token" fs <;>
      simp [ofJson?, record, h₁, Option.bind_eq_some_iff]
  write_eq s := by simp [toJson]

@[simp]
theorem BootstrapToken.schema_read : BootstrapToken.schema.read = BootstrapToken.ofJson? := rfl

@[simp]
theorem BootstrapToken.schema_write : BootstrapToken.schema.write = BootstrapToken.toJson := rfl

def Discovery.schema : Schema Discovery where
  header := []
  fields := [.perhaps "bootstrapToken" BootstrapToken.schema.format (·.bootstrapToken)]
  read := ofJson?
  write := toJson
  read_obj_iff fs s := by
    cases s
    cases h₁ : single "bootstrapToken" fs <;>
      simp [ofJson?, record, h₁, Option.bind_eq_some_iff]
  write_eq s := by simp [toJson]

@[simp]
theorem Discovery.schema_read : Discovery.schema.read = Discovery.ofJson? := rfl

@[simp]
theorem Discovery.schema_write : Discovery.schema.write = Discovery.toJson := rfl

def JoinConfiguration.schema : Schema JoinConfiguration where
  header := []
  fields := [.preset "discovery" (·.discovery) Discovery.schema.format {}]
  read := ofJson?
  write := toJson
  read_obj_iff fs s := by
    cases s
    cases h₁ : single "discovery" fs <;>
      simp [ofJson?, record, h₁, Option.bind_eq_some_iff]
  write_eq s := by simp [toJson]

@[simp]
theorem JoinConfiguration.schema_read : JoinConfiguration.schema.read = JoinConfiguration.ofJson? :=
  rfl

@[simp]
theorem JoinConfiguration.schema_write :
    JoinConfiguration.schema.write = JoinConfiguration.toJson := rfl

def KubeadmConfigSpec.schema : Schema KubeadmConfigSpec where
  header := []
  fields := [.perhaps "joinConfiguration" JoinConfiguration.schema.format (·.joinConfiguration)]
  read := ofJson?
  write := toJson
  read_obj_iff fs s := by
    cases s
    cases h₁ : single "joinConfiguration" fs <;>
      simp [ofJson?, record, h₁, Option.bind_eq_some_iff]
  write_eq s := by simp [toJson]

@[simp]
theorem KubeadmConfigSpec.schema_read : KubeadmConfigSpec.schema.read = KubeadmConfigSpec.ofJson? :=
  rfl

@[simp]
theorem KubeadmConfigSpec.schema_write :
    KubeadmConfigSpec.schema.write = KubeadmConfigSpec.toJson := rfl

def KubeadmConfig.schema : Schema KubeadmConfig where
  header := [("apiVersion", apiVersion), ("kind", "KubeadmConfig")]
  fields := [.required "metadata" (·.metadata) Metadata.schema.format,
    .required "spec" (·.spec) KubeadmConfigSpec.schema.format]
  read := ofJson?
  write := toJson
  read_obj_iff fs s := by
    cases s
    rcases h₁ : single "metadata" fs with _ | _
      | _ <;> rcases h₂ : single "spec" fs with _ | _ | _ <;>
      simp [ofJson?, record, h₁, h₂, Option.bind_eq_some_iff]
  write_eq s := by simp [toJson]

end Api

end HollowNode
