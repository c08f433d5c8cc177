import HollowNode.Kube.Management
import HollowNode.Proofs.Api.Schemas
import HollowNode.Proofs.Except
import HollowNode.Proofs.Json.Merging
import HollowNode.Proofs.Kube.Requests

namespace HollowNode

open Json Api

namespace Api

variable {fs : List (String × Json)}

theorem MachineSpec.read_put_providerId {s : MachineSpec} (reads : ofJson? (.obj fs) = some s)
    (p : String) :
    ofJson? (.obj (put "providerID" (.str p) fs)) = some { s with providerId := some p } := by
  have known : Field.perhaps "providerID" .text MachineSpec.providerId ∈ schema.fields := by
    simp [schema]
  obtain ⟨o, single, -⟩ := Field.reads_perhaps.1 ((schema.read_obj_iff fs s).1 reads _ known)
  refine schema.read_put known reads (length_values_of_single single) rfl ?_
  intro G hG ne
  simp only [schema, List.mem_cons, List.not_mem_nil, or_false] at hG
  rcases hG with rfl | rfl | rfl | rfl
  · rfl
  · rfl
  · rfl
  · exact absurd rfl ne

theorem Machine.read_put_spec {m : Machine} {spec : List (String × Json)}
    (reads : ofJson? (.obj fs) = some m) (there : lookup "spec" fs = some (.obj spec))
    (p : String) :
    ofJson? (.obj (put "spec" (.obj (put "providerID" (.str p) spec)) fs)) =
      some { m with spec := { m.spec with providerId := some p } } := by
  have known : Field.required "spec" Machine.spec MachineSpec.schema.format ∈ schema.fields := by
    simp [schema]
  obtain ⟨j, single, read⟩ := Field.reads_required.1 ((schema.read_obj_iff fs m).1 reads _ known)
  obtain rfl : j = .obj spec := by
    rw [lookup_of_single single] at there
    exact Option.some.inj there
  refine schema.read_put known reads (length_values_of_single single)
    (MachineSpec.read_put_providerId read p) ?_
  intro G hG ne
  simp only [schema, List.mem_cons, List.not_mem_nil, or_false] at hG
  rcases hG with rfl | rfl
  · rfl
  · exact absurd rfl ne

theorem KubemarkMachineStatus.read_put_report {s : KubemarkMachineStatus}
    (reads : ofJson? (.obj fs) = some s) (p : String) :
    ofJson? (.obj (put "providerID" (.str p) (put "ready" (.bool true) fs))) =
      some ⟨true, some p⟩ := by
  have ready : Field.preset "ready" KubemarkMachineStatus.ready .flag false ∈ schema.fields := by
    simp [schema]
  have provider : Field.perhaps "providerID" .text KubemarkMachineStatus.providerId ∈
    schema.fields := by simp [schema]
  obtain ⟨o, single, -⟩ := Field.reads_preset.1 ((schema.read_obj_iff fs s).1 reads _ ready)
  have first : ofJson? (.obj (put "ready" (.bool true) fs)) = some { s with ready := true } := by
    refine schema.read_put ready reads (length_values_of_single single) rfl ?_
    intro G hG ne
    simp only [schema, List.mem_cons, List.not_mem_nil, or_false] at hG
    rcases hG with rfl | rfl
    · exact absurd rfl ne
    · rfl
  obtain ⟨o', single', -⟩ := Field.reads_perhaps.1 ((schema.read_obj_iff _ _).1 first _ provider)
  refine schema.read_put provider first (length_values_of_single single') rfl ?_
  intro G hG ne
  simp only [schema, List.mem_cons, List.not_mem_nil, or_false] at hG
  rcases hG with rfl | rfl
  · rfl
  · exact absurd rfl ne

/-- The status of a machine is missing, or it is an object. -/
def HasStatus (fs : List (String × Json)) : Prop :=
  lookup "status" fs = none ∨ ∃ status, lookup "status" fs = some (.obj status)

theorem KubemarkMachine.read_status {m : KubemarkMachine} (reads : ofJson? (.obj fs) = some m)
    (object : HasStatus fs) :
    (values "status" fs).length ≤ 1 ∧
      ∃ s, KubemarkMachineStatus.ofJson? (.obj ((lookup "status" fs).getD .null).members) =
        some s := by
  have known : Field.perhaps "status" KubemarkMachineStatus.schema.format KubemarkMachine.status ∈
      schema.fields := by
    simp [schema]
  obtain ⟨o, single, read⟩ := Field.reads_perhaps.1 ((schema.read_obj_iff fs m).1 reads _ known)
  refine ⟨length_values_of_single single, ?_⟩
  rcases object with missing | ⟨status, there⟩
  · rw [missing]
    exact ⟨⟨false, none⟩, rfl⟩
  · rw [there, Option.getD_some]
    obtain rfl : o = some (.obj status) := by rw [← lookup_of_single single, there]
    obtain ⟨s, hs, -⟩ :=
      Option.map_eq_some_iff.1
      (show (KubemarkMachineStatus.ofJson? (.obj status)).map some = _ from read)
    exact ⟨s, hs⟩

theorem KubemarkMachine.read_put_status {m : KubemarkMachine} (reads : ofJson? (.obj fs) = some m)
    (object : HasStatus fs) (p : String) :
    ofJson? (.obj (put "status" (.obj (put "providerID" (.str p) (put "ready" (.bool true)
      ((lookup "status" fs).getD .null).members))) fs)) =
        some { m with status := some ⟨true, some p⟩ } := by
  have known : Field.perhaps "status" KubemarkMachineStatus.schema.format KubemarkMachine.status ∈
      schema.fields := by
    simp [schema]
  obtain ⟨single, s, hs⟩ := read_status reads object
  have new := Format.nullable_of_read (F := KubemarkMachineStatus.schema.format)
    (KubemarkMachineStatus.read_put_report hs p)
  refine schema.read_put known reads single new ?_
  intro G hG ne
  simp only [schema, List.mem_cons, List.not_mem_nil, or_false] at hG
  rcases hG with rfl | rfl | rfl
  · rfl
  · rfl
  · exact absurd rfl ne

end Api

namespace Kube.Management

variable {ns name p : String} {fs : List (String × Json)}

theorem merge_providerIdPatch (fs : List (String × Json)) (p : String) :
    merge (.obj fs) (providerIdPatch p) = .obj (put "spec"
      (.obj (put "providerID" (.str p) ((lookup "spec" fs).getD .null).members)) fs) := by
  simp [providerIdPatch, merge, mergeFields, members]

theorem merge_readyPatch (fs : List (String × Json)) (p : String) :
    merge (.obj fs) (readyPatch p) = .obj (put "status"
      (.obj (put "providerID" (.str p) (put "ready" (.bool true)
        ((lookup "status" fs).getD .null).members))) fs) := by
  simp [readyPatch, merge, mergeFields, members]

theorem distinct_providerIdPatch (p : String) : (providerIdPatch p).Distinct := by
  simp [providerIdPatch, Distinct, DistinctFields]

theorem distinct_readyPatch (p : String) : (readyPatch p).Distinct := by
  simp [readyPatch, Distinct, DistinctFields]

/-- A request asks the server to merge a patch into what is at a path. -/
def Patches (request : Request) (path : String) (patch : Json) : Prop :=
  request.Asks .patch (path ++ "?") "application/merge-patch+json" patch

theorem patches_of_mergePatch {α : Type} {r : Resource} {part path : String} {patch : Json}
    {read : Json → Option α} {call : Call Failure Unit}
    (there : r.path (some ns) ++ "/" ++ name ++ part = path)
    (h : (asking (mergePatch r (some ns) name part patch read)).map (·.mapRead done) = .ok call) :
    Patches call.request path patch := by
  obtain ⟨asked, hasked, rfl⟩ := map_eq_ok_iff.1 h
  obtain ⟨sent, hsent, rfl⟩ := map_eq_ok_iff.1 hasked
  exact there ▸ asks_of_mergePatch (mapError_eq_ok_iff.1 hsent)

theorem path_machines (ns : String) : machines.path (some ns) =
    "/apis/cluster.x-k8s.io/v1beta1/namespaces/" ++ ns ++ "/machines" := by
  simp [machines, Resource.path, Resource.root, clusterApiGroup, toString, String.append_assoc]

theorem path_kubemarkMachines (ns : String) : kubemarkMachines.path (some ns) =
    "/apis/infrastructure.cluster.x-k8s.io/v1alpha4/namespaces/" ++ ns ++ "/kubemarkmachines" := by
  simp [kubemarkMachines, Resource.path, Resource.root, toString, String.append_assoc]

theorem patches_of_setProviderId {call : Call Failure Unit}
    (h : setProviderId ns name p = .ok call) : Patches call.request
      ("/apis/cluster.x-k8s.io/v1beta1/namespaces/" ++ ns ++ "/machines/" ++ name)
      (providerIdPatch p) := by
  refine patches_of_mergePatch ?_ h
  rw [path_machines]
  simp [String.append_assoc]

theorem patches_of_markReady {call : Call Failure Unit} (h : markReady ns name p = .ok call) :
    Patches call.request ("/apis/infrastructure.cluster.x-k8s.io/v1alpha4/namespaces/" ++ ns ++
      "/kubemarkmachines/" ++ name ++ "/status") (readyPatch p) := by
  refine patches_of_mergePatch ?_ h
  rw [path_kubemarkMachines]
  simp [String.append_assoc]

/-- One patch goes to a machine and the other to the status of one that is to be provisioned. A
machine to which its provider ID was written is read as the same one with that ID, and a machine
that was made ready as the same one, ready and with that ID, whatever else is in their documents. To
merge either patch a second time changes nothing. -/
theorem reports_readBack (ns name p : String) :
    ((∀ call, setProviderId ns name p = .ok call → Patches call.request
        ("/apis/cluster.x-k8s.io/v1beta1/namespaces/" ++ ns ++ "/machines/" ++ name)
        (providerIdPatch p)) ∧
      ∀ call, markReady ns name p = .ok call → Patches call.request
        ("/apis/infrastructure.cluster.x-k8s.io/v1alpha4/namespaces/" ++ ns ++
          "/kubemarkmachines/" ++ name ++ "/status") (readyPatch p)) ∧
    (∀ fs m spec, Machine.ofJson? (.obj fs) = some m → lookup "spec" fs = some (.obj spec) →
      Machine.ofJson? (merge (.obj fs) (providerIdPatch p)) =
        some { m with spec := { m.spec with providerId := some p } }) ∧
    (∀ fs m, KubemarkMachine.ofJson? (.obj fs) = some m → HasStatus fs →
      ∃ ready, KubemarkMachine.ofJson? (merge (.obj fs) (readyPatch p)) = some ready ∧
        ready.isReady = true ∧
        ready = { m with status := some { ready := true, providerId := some p } }) ∧
    ∀ document,
      merge (merge document (providerIdPatch p)) (providerIdPatch p) =
        merge document (providerIdPatch p) ∧
      merge (merge document (readyPatch p)) (readyPatch p) = merge document (readyPatch p) := by
  refine ⟨⟨fun _ => patches_of_setProviderId, fun _ => patches_of_markReady⟩, ?_, ?_, ?_⟩
  · intro fs m spec reads there
    rw [merge_providerIdPatch, there]
    exact Machine.read_put_spec reads there p
  · intro fs m reads object
    rw [merge_readyPatch]
    exact ⟨_, KubemarkMachine.read_put_status reads object p, rfl, rfl⟩
  · intro document
    exact ⟨merge_merge document _ (distinct_providerIdPatch p),
      merge_merge document _ (distinct_readyPatch p)⟩

def ownerDocument : List (String × Json) :=
  [("kind", .str "Machine"),
    ("spec", .obj [("version", .null), ("clusterName", .str "c"), ("providerID", .null)]),
    ("metadata", .obj [("name", .str "m"), ("labels", .obj [("l", .str "1")])]),
    ("status", .obj [])]

def unreadyDocument : List (String × Json) :=
  [("status", .obj [("phase", .str "Pending"), ("ready", .bool false)]),
    ("metadata", .obj [("name", .str "m")]),
    ("spec", .obj [("nodeLabels", .obj [("l", .str "1")])])]

def owner : Machine :=
  ⟨{ name := some "m", labels := some (.ofList [("l", "1")]) }, { clusterName := "c" }⟩

def unready : KubemarkMachine :=
  ⟨{ name := some "m" }, { nodeLabels := .ofList [("l", "1")] }, some ⟨false, none⟩⟩

theorem documents_readBack :
    (∃ call, setProviderId "n" "m" "kubemark://m" = .ok call ∧ Patches call.request
        "/apis/cluster.x-k8s.io/v1beta1/namespaces/n/machines/m" (providerIdPatch "kubemark://m")) ∧
      Machine.ofJson? (merge (.obj ownerDocument) (providerIdPatch "kubemark://m")) =
        some { owner with spec := { owner.spec with providerId := some "kubemark://m" } } ∧
      (∃ call, markReady "n" "m" "kubemark://m" = .ok call ∧ Patches call.request
        "/apis/infrastructure.cluster.x-k8s.io/v1alpha4/namespaces/n/kubemarkmachines/m/status"
        (readyPatch "kubemark://m")) ∧
      KubemarkMachine.ofJson? (merge (.obj unreadyDocument) (readyPatch "kubemark://m")) =
        some { unready with status := some ⟨true, some "kubemark://m"⟩ } := by
  obtain ⟨⟨provides, readies⟩, machine, kubemarkMachine, -⟩ :=
    reports_readBack "n" "m" "kubemark://m"
  have sent : (setProviderId "n" "m" "kubemark://m").toOption.isSome = true := by decide +kernel
  have sent' : (markReady "n" "m" "kubemark://m").toOption.isSome = true := by decide +kernel
  obtain ⟨call, hcall⟩ := Option.isSome_iff_exists.1 sent
  obtain ⟨call', hcall'⟩ := Option.isSome_iff_exists.1 sent'
  obtain ⟨ready, reads, -, rfl⟩ := kubemarkMachine unreadyDocument unready rfl (.inr ⟨_, rfl⟩)
  exact ⟨⟨call, eq_ok_of_toOption hcall, provides call (eq_ok_of_toOption hcall)⟩,
    machine ownerDocument owner _ rfl rfl,
    ⟨call', eq_ok_of_toOption hcall', readies call' (eq_ok_of_toOption hcall')⟩, reads⟩

end Kube.Management

end HollowNode
