import HollowNode.Proofs.Api.Schemas

namespace HollowNode.Api

open Json Field

theorem OwnerReference.keeps (r : OwnerReference) : schema.format.Keeps r :=
  Schema.keeps ⟨keeps_lastText, keeps_last fun b _ => Format.keeps_flag b,
    keeps_last fun b _ => Format.keeps_flag b, keeps_lastText, keeps_lastText, keeps_lastText⟩

theorem Metadata.keeps {m : Metadata}
    (times : ∀ t, m.creationTimestamp = some t ∨ m.deletionTimestamp = some t → timeFormat.Keeps t)
    (numbers : ∀ n, m.deletionGracePeriodSeconds = some n ∨ m.generation = some n →
      int64Format.Keeps n)
    (managed : ∀ l, m.managedFields = some l → ∀ f ∈ l, ManagedFields.schema.format.Keeps f) :
    schema.format.Keeps m := by
  have text {get : Metadata → Option String} {name : String} : (last name .text get).Keeps m :=
    keeps_last fun s _ => Format.keeps_text s
  exact Schema.keeps ⟨keeps_last fun l _ => Format.keeps_texts l,
    keeps_last fun t h => times t (.inl h), keeps_last fun n h => numbers n (.inl h),
    keeps_last fun t h => times t (.inr h), keeps_last fun l _ => Format.keeps_list fun s _ =>
    Format.keeps_text s, text, keeps_last fun n h => numbers n (.inr h), keeps_last fun l _ =>
    Format.keeps_texts l, keeps_last fun l h => Format.keeps_list (managed l h), text, text,
    keeps_last fun l _ => Format.keeps_list fun r _ => r.keeps, text, text, text⟩

theorem keeps_effect (e : TaintEffect) : effectFormat.Keeps e :=
  Format.keeps_iff.2 ⟨_, spells_str e.name, TaintEffect.ofName?_name e⟩

theorem keeps_taint (t : Taint) : taintSchema.format.Keeps t :=
  Schema.keeps ⟨keeps_required (Format.keeps_text _), keeps_perhaps fun s _ => Format.keeps_text s,
    keeps_required (keeps_effect _)⟩

theorem KubemarkMachineSpec.keeps (s : KubemarkMachineSpec) : schema.format.Keeps s := by
  have empty (m : Dict String) (h : m.isEmpty = true) : m = {} :=
    Dict.eq_empty_iff.2 (List.isEmpty_iff.1 h)
  exact Schema.keeps ⟨keeps_unlessEmpty empty (Format.keeps_texts _),
    keeps_unlessEmpty empty (Format.keeps_texts _),
    keeps_unlessEmpty (fun _ => List.isEmpty_iff.1) (Format.keeps_list fun t _ => keeps_taint t)⟩

theorem KubemarkMachineStatus.keeps (s : KubemarkMachineStatus) : schema.format.Keeps s :=
  Schema.keeps ⟨keeps_preset (Format.keeps_flag _), keeps_perhaps fun s _ => Format.keeps_text s⟩

theorem KubemarkMachine.keeps (m : KubemarkMachine)
    (metadata : Metadata.schema.format.Keeps m.metadata) : schema.format.Keeps m :=
  Schema.keeps ⟨keeps_required metadata, keeps_required m.spec.keeps,
    keeps_perhaps fun s _ => s.keeps⟩

theorem ObjectReference.keeps (r : ObjectReference) : schema.format.Keeps r := by
  have text {get : ObjectReference → Option String} {name : String} :
      (perhaps name .text get).Keeps r :=
    keeps_perhaps fun s _ => Format.keeps_text s
  exact Schema.keeps ⟨text, text, keeps_preset (Format.keeps_text _), text⟩

theorem MachineBootstrap.keeps (b : MachineBootstrap) : schema.format.Keeps b :=
  Schema.keeps ⟨keeps_perhaps fun r _ => r.keeps, keeps_perhaps fun s _ => Format.keeps_text s⟩

theorem MachineSpec.keeps (s : MachineSpec) : schema.format.Keeps s :=
  Schema.keeps ⟨keeps_preset (Format.keeps_text _), keeps_preset s.bootstrap.keeps,
    keeps_preset s.infrastructureRef.keeps, keeps_perhaps fun s _ => Format.keeps_text s⟩

theorem Machine.keeps (m : Machine) (metadata : Metadata.schema.format.Keeps m.metadata) :
    schema.format.Keeps m :=
  Schema.keeps ⟨keeps_required metadata, keeps_required m.spec.keeps⟩

theorem ClusterStatus.keeps (s : ClusterStatus) : schema.format.Keeps s :=
  Schema.keeps (keeps_preset (Format.keeps_flag _))

theorem Cluster.keeps (c : Cluster) (metadata : Metadata.schema.format.Keeps c.metadata) :
    schema.format.Keeps c := by
  have spec : clusterSpecSchema.format.Keeps () := Schema.keeps trivial
  exact Schema.keeps ⟨keeps_required metadata, keeps_required spec,
    keeps_perhaps fun s _ => s.keeps⟩

theorem BootstrapToken.keeps (t : BootstrapToken) : schema.format.Keeps t :=
  Schema.keeps (keeps_preset (Format.keeps_text _))

theorem Discovery.keeps (d : Discovery) : schema.format.Keeps d :=
  Schema.keeps (keeps_perhaps fun t _ => t.keeps)

theorem JoinConfiguration.keeps (c : JoinConfiguration) : schema.format.Keeps c :=
  Schema.keeps (keeps_preset c.discovery.keeps)

theorem KubeadmConfigSpec.keeps (s : KubeadmConfigSpec) : schema.format.Keeps s :=
  Schema.keeps (keeps_perhaps fun c _ => c.keeps)

theorem KubeadmConfig.keeps (c : KubeadmConfig)
    (metadata : Metadata.schema.format.Keeps c.metadata) : schema.format.Keeps c :=
  Schema.keeps ⟨keeps_required metadata, keeps_required c.spec.keeps⟩

def Unchanged {σ β : Type} (S : Schema σ) (metadata : σ → Metadata) (accessor : σ → β) : Prop :=
  ∀ s, Metadata.schema.format.Keeps (metadata s) →
    ∀ text, Respells S.fields (S.write s).write text → ((Json.read text).bind S.read).map accessor =
    some (accessor s)

/-- The objects and their parts are read back from the JSON in which they are written, whatever the
order of the fields, and whatever fields are there besides, and so is what a pass wants to know of
them. -/
theorem objects_roundTrip :
    RoundTrips KubemarkMachineSpec.toJson KubemarkMachineSpec.ofJson?
      KubemarkMachineSpec.schema.fields
        (fun _ => True) ∧
      RoundTrips KubemarkMachineStatus.toJson KubemarkMachineStatus.ofJson?
        KubemarkMachineStatus.schema.fields (fun _ => True) ∧
      RoundTrips taintJson taint? taintSchema.fields (fun _ => True) ∧
      RoundTrips MachineSpec.toJson MachineSpec.ofJson? MachineSpec.schema.fields (fun _ => True) ∧
      RoundTrips ClusterStatus.toJson ClusterStatus.ofJson? ClusterStatus.schema.fields
        (fun _ => True) ∧
      RoundTrips KubeadmConfigSpec.toJson KubeadmConfigSpec.ofJson? KubeadmConfigSpec.schema.fields
        (fun _ => True) ∧
      RoundTrips KubemarkMachine.toJson KubemarkMachine.ofJson? KubemarkMachine.schema.fields
        (Metadata.schema.format.Keeps ·.metadata) ∧
      RoundTrips Machine.toJson Machine.ofJson? Machine.schema.fields
        (Metadata.schema.format.Keeps ·.metadata) ∧
      RoundTrips Cluster.toJson Cluster.ofJson? Cluster.schema.fields
        (Metadata.schema.format.Keeps ·.metadata) ∧
      RoundTrips KubeadmConfig.toJson KubeadmConfig.ofJson? KubeadmConfig.schema.fields
        (Metadata.schema.format.Keeps ·.metadata) ∧
      Unchanged KubemarkMachine.schema (·.metadata) KubemarkMachine.isReady ∧
      Unchanged Machine.schema (·.metadata) Machine.clusterName ∧
      Unchanged Cluster.schema (·.metadata) Cluster.infrastructureReady ∧
      Unchanged KubeadmConfig.schema (·.metadata) KubeadmConfig.bootstrapToken := by
  have machine := KubemarkMachine.schema.roundTrips KubemarkMachine.keeps
  have owner := Machine.schema.roundTrips Machine.keeps
  have cluster := Cluster.schema.roundTrips Cluster.keeps
  have config := KubeadmConfig.schema.roundTrips KubeadmConfig.keeps
  exact ⟨KubemarkMachineSpec.schema.roundTrips fun s _ => s.keeps,
    KubemarkMachineStatus.schema.roundTrips fun s _ => s.keeps, taintSchema.roundTrips fun t _ =>
      keeps_taint t,
    MachineSpec.schema.roundTrips fun s _ => s.keeps, ClusterStatus.schema.roundTrips
      fun s _ => s.keeps,
    KubeadmConfigSpec.schema.roundTrips fun s _ => s.keeps, machine, owner, cluster, config,
    fun s fits text respells => congrArg (Option.map _) (machine.respelled s fits text respells),
    fun s fits text respells => congrArg (Option.map _) (owner.respelled s fits text respells),
    fun s fits text respells => congrArg (Option.map _) (cluster.respelled s fits text respells),
    fun s fits text respells => congrArg (Option.map _) (config.respelled s fits text respells)⟩

def readyMachine : KubemarkMachine := ⟨{ name := some "m" }, {}, some ⟨true, none⟩⟩

/-- The fields of that machine in reverse order, after one that nobody knows. -/
def reversedMachine : List (String × Json) :=
  [("z", .arr []), ("status", .obj [("ready", .bool true)]), ("spec", .obj []),
    ("metadata", .obj [("name", .str "m")]), ("kind", .str "KubemarkMachine"),
    ("apiVersion", .str KubemarkMachine.apiVersion)]

theorem rereads_reversedMachine : reversedMachine.Forall₂ FieldRereads reversedMachine :=
  .cons ⟨rfl, .arr .nil⟩ <| .cons ⟨rfl, .obj (.cons ⟨rfl, spells_bool true⟩ .nil)⟩ <|
    .cons ⟨rfl, .obj .nil⟩ <| .cons ⟨rfl, .obj (.cons ⟨rfl, spells_str "m"⟩ .nil)⟩ <|
    .cons ⟨rfl, spells_str _⟩ <| .cons ⟨rfl, spells_str _⟩ .nil

theorem respells_readyMachine :
    Respells KubemarkMachine.schema.fields readyMachine.toJson.write
      (Json.obj reversedMachine).write := by
  have reads {fs : List (String × Json)} (rereads : fs.Forall₂ FieldRereads fs) :
      Json.read (Json.obj fs).write = some (.obj fs) :=
        read_ofList_eq_some_iff.2 (Rereads.obj rereads)
  have others : reversedMachine.tail.Forall₂ FieldRereads reversedMachine.tail := by
    cases rereads_reversedMachine with
    | cons _ others => exact others
  refine ⟨.obj reversedMachine.tail.reverse, _, reads (List.rel_reverse others), ?_,
    reads rereads_reversedMachine⟩
  have reversed :
      Change KubemarkMachine.schema.fields (.obj reversedMachine.tail.reverse)
        (.obj reversedMachine.tail) :=
    .reorder (by decide) (List.reverse_perm _)
  exact (Relation.ReflTransGen.single reversed).tail
    (.insert [] reversedMachine.tail (by decide) (.arr []))

theorem readyMachine_roundTrip :
    (Json.read (Json.obj reversedMachine).write).bind KubemarkMachine.ofJson? = some readyMachine ∧
      ((Json.read (Json.obj reversedMachine).write).bind KubemarkMachine.ofJson?).map
        KubemarkMachine.isReady = some true := by
  obtain ⟨-, -, -, -, -, -, machine, -, -, -, ready, -⟩ := objects_roundTrip
  have metadata : Metadata.schema.format.Keeps readyMachine.metadata :=
    Metadata.keeps (by simp [readyMachine]) (by simp [readyMachine]) (by simp [readyMachine])
  exact ⟨machine.respelled _ metadata _ respells_readyMachine,
    ready _ metadata _ respells_readyMachine⟩

end HollowNode.Api
