import HollowNode.Pass.Provision
import HollowNode.Proofs.Pass.Exchange
import HollowNode.Simulation.World

namespace HollowNode.Pass

open Api

def Query.isWrite : Query → Bool
  | createConfigMap _ | createDeployment _ | setProviderId .. | markReady .. => true
  | kubemarkMachine .. | machine .. | cluster .. | kubeadmConfig .. | secretValue ..
      | csrClient _ | workload _
  | bootstrap _ | clock | observe .. | release _ => false

/-- What a pass asks at any time: it reads, connects, or turns to its controller, but not for a
certificate. -/
def Query.isRead : Query → Bool
  | kubemarkMachine .. | machine .. | cluster .. | kubeadmConfig .. | secretValue ..
      | csrClient _ | workload _
  | clock | observe .. | release _ => true
  | createConfigMap _ | createDeployment _ | setProviderId .. | markReady .. | bootstrap _ => false

def Query.failureKind : Query → String
  | createConfigMap _ | createDeployment _ => "submission_failed"
  | _ => "status_update_failed"

def Exchange.failure? (name : String) : Exchange → Option Failure
  | ⟨.createConfigMap _, .error f⟩ => some (.create .identityBundle name f)
  | ⟨.createDeployment _, .error f⟩ => some (.create .deployment name f)
  | ⟨.setProviderId ownerNs ownerName _, .error f⟩ => some (.report .machine ownerNs ownerName f)
  | ⟨.markReady ns name _, .error f⟩ => some (.report .kubemarkMachine ns name f)
  | _ => none

variable {α β : Type} {ns name : String} {h t : List Exchange} {x : Exchange} {q : Query}

theorem Query.isWrite_of_isRead (hq : q.isRead = true) : q.isWrite = false := by
  cases q with
  | createConfigMap | createDeployment | setProviderId | markReady => cases hq
  | _ => rfl

theorem Query.isForeign_of_isWrite (hq : q.isWrite = true) : Simulation.isForeign q = true := by
  cases q with
  | createConfigMap | createDeployment | setProviderId | markReady => rfl
  | _ => cases hq

theorem Exchange.isWrite_of_failure? {f : Failure} (hf : x.failure? name = some f) :
    x.query.isWrite = true := by
  obtain ⟨q, answer⟩ := x
  cases q with
  | createConfigMap | createDeployment | setProviderId | markReady => rfl
  | _ => simp [failure?] at hf

theorem Exchange.kind_of_failure? {f : Failure} (hf : x.failure? name = some f) :
    f.kind = x.query.failureKind := by
  unfold failure? at hf
  split at hf <;> cases hf <;> rfl

def written (h : List Exchange) : List Query := (h.map (·.query)).filter (·.isWrite)

theorem written_of_read (hq : x.query.isWrite = false) : written (h ++ [x]) = written h := by
  simp [written, hq]

theorem written_of_write (hq : x.query.isWrite = true) :
    written (h ++ [x]) = written h ++ [x.query] := by
  simp [written, hq]

def Clean (name : String) (h : List Exchange) : Prop := ∀ x ∈ h, x.failure? name = none

theorem Clean.append (hh : Clean name h) (hx : x.failure? name = none) : Clean name (h ++ [x]) := by
  intro y hy
  rcases List.mem_append.1 hy with hy | hy
  · exact hh y hy
  · rw [List.mem_singleton.1 hy]
    exact hx

theorem clean_of_written (hw : written h = []) : Clean name h := by
  intro x hx
  cases hf : x.failure? name with
  | none => rfl
  | some f =>
      have hmem : x.query ∈ written h :=
        List.mem_filter.2 ⟨List.mem_map_of_mem hx, Exchange.isWrite_of_failure? hf⟩
      rw [hw] at hmem
      cases hmem

/-- What a pass is to write: the machine and its owner as they were read, and what the two objects
are made of. -/
structure Plan where
  machine : KubemarkMachine
  owner : Machine
  bundle : Workload.Bundle
  deployment : Deployment

def Plan.writes (p : Plan) (ns name : String) : List Query :=
  [.createConfigMap p.bundle.configMap, .createDeployment p.deployment,
    .setProviderId (p.owner.metadata.ns.getD ns) p.owner.metadata.nameAny ("kubemark://" ++ name),
    .markReady ns name ("kubemark://" ++ name)]

theorem Plan.written_of_markReady (p : Plan) {writes : List Query} {ns' name' id : String}
    (hfirst : writes ++ [.markReady ns' name' id] <+: p.writes ns name) :
    writes = [.createConfigMap p.bundle.configMap, .createDeployment p.deployment,
      .setProviderId (p.owner.metadata.ns.getD ns) p.owner.metadata.nameAny
        ("kubemark://" ++ name)] ∧
      ns' = ns ∧ name' = name ∧ id = "kubemark://" ++ name := by
  obtain ⟨rest, hrest⟩ := hfirst
  rcases writes with _ | ⟨a, _ | ⟨b, _ | ⟨c, _ | ⟨d, writes⟩⟩⟩⟩ <;> simp_all [Plan.writes]

/-- A plan is based on what a pass was told: on its machine, the owner of the machine and a
certificate that was issued. The Deployment is named after the machine, which a cluster shows under
its own name. -/
structure Plan.Grounded (p : Plan) (ns name : String) (h : List Exchange) : Prop where
  machine : ⟨.kubemarkMachine ns name, .ok (some p.machine)⟩ ∈ h
  owner : ∃ ownerName, ownerName? p.machine = some ownerName ∧
    ⟨.machine ns ownerName, .ok (some p.owner)⟩ ∈ h
  issued : ∃ identity, ⟨.bootstrap (.forNode ns name), .ok (.issued identity)⟩ ∈ h ∧
    p.bundle.certPem = identity.stackedPem
  configMap : p.bundle.configMap.metadata.ns = some "kube-system" ∧
    p.bundle.configMap.metadata.name = some name
  deployment : p.deployment.metadata.ns = some "kube-system" ∧
    p.deployment.metadata.name = some p.machine.metadata.nameAny

theorem Plan.Grounded.later {p : Plan} (g : p.Grounded ns name h) (hsub : h ⊆ t) :
    p.Grounded ns name t where
  machine := hsub g.machine
  owner := by
    obtain ⟨ownerName, hname, howner⟩ := g.owner
    exact ⟨ownerName, hname, hsub howner⟩
  issued := by
    obtain ⟨identity, hidentity, hcert⟩ := g.issued
    exact ⟨identity, hsub hidentity, hcert⟩
  configMap := g.configMap
  deployment := g.deployment

/-- All that a plan is made of was told: the machine, which is not ready, its owner, the kubeconfig
of the cluster of the owner, and the certificate. -/
structure Plan.Sourced (settings : Settings) (p : Plan) (ns name : String)
    (h : List Exchange) : Prop where
  machine : ⟨.kubemarkMachine ns name, .ok (some p.machine)⟩ ∈ h
  pending : p.machine.isReady = false
  owner : ∃ ownerName, ownerName? p.machine = some ownerName ∧
    ⟨.machine ns ownerName, .ok (some p.owner)⟩ ∈ h
  kubeconfig : ∃ clusterName text access, p.owner.clusterName = some clusterName ∧
    ⟨.secretValue ns (kubeconfigSecretName clusterName) kubeconfigSecretKey, .ok (some text)⟩ ∈ h ∧
    ClusterAccess.ofText text = .ok access ∧
    p.bundle.kubeconfig = (Kubeconfig.withCertificate access Workload.identityCertPath).write
  issued : ∃ identity, ⟨.bootstrap (.forNode ns name), .ok (.issued identity)⟩ ∈ h ∧
    p.bundle.certPem = identity.stackedPem
  named : p.bundle.name = name
  deployment : Workload.deployment settings.kubemarkImage p.machine p.bundle = .ok p.deployment

theorem Plan.Sourced.later {settings : Settings} {p : Plan} (g : p.Sourced settings ns name h)
    (hsub : h ⊆ t) : p.Sourced settings ns name t where
  machine := hsub g.machine
  pending := g.pending
  owner := by
    obtain ⟨ownerName, hname, howner⟩ := g.owner
    exact ⟨ownerName, hname, hsub howner⟩
  kubeconfig := by
    obtain ⟨clusterName, text, access, hcluster, hsecret, haccess⟩ := g.kubeconfig
    exact ⟨clusterName, text, access, hcluster, hsub hsecret, haccess⟩
  issued := by
    obtain ⟨identity, hidentity, hcert⟩ := g.issued
    exact ⟨identity, hsub hidentity, hcert⟩
  named := g.named
  deployment := g.deployment

theorem deployment_named {image : String} {machine : KubemarkMachine} {bundle : Workload.Bundle}
    {deployment : Deployment} (h : Workload.deployment image machine bundle = .ok deployment) :
    deployment.metadata.ns = some "kube-system" ∧
    deployment.metadata.name = some machine.metadata.nameAny := by
  unfold Workload.deployment at h
  cases hargs : Workload.arguments machine with
  | error fault =>
      rw [hargs] at h
      cases h
  | ok args =>
      rw [hargs] at h
      cases h
      exact ⟨rfl, rfl⟩

theorem Plan.Sourced.grounded {settings : Settings} {p : Plan} (g : p.Sourced settings ns name h) :
    p.Grounded ns name h where
  machine := g.machine
  owner := g.owner
  issued := g.issued
  configMap := ⟨rfl, congrArg some g.named⟩
  deployment := deployment_named g.deployment

structure Early (h : List Exchange) : Prop where
  none : written h = []
  unissued : ∀ request identity, ⟨.bootstrap request, .ok (.issued identity)⟩ ∉ h

theorem Early.append (early : Early h) (hx : x.query.isWrite = false)
    (unissued : ∀ request identity, x ≠ ⟨.bootstrap request, .ok (.issued identity)⟩) :
    Early (h ++ [x]) where
  none := (written_of_read hx).trans early.none
  unissued request identity hmem := by
    rcases List.mem_append.1 hmem with hmem | hmem
    · exact early.unissued request identity hmem
    · exact unissued request identity (List.mem_singleton.1 hmem).symm

theorem Early.read (early : Early h) (hx : x.query.isRead = true) : Early (h ++ [x]) := by
  refine early.append (Query.isWrite_of_isRead hx) fun request identity heq => ?_
  rw [heq] at hx
  cases hx

/-- A pass asks for nothing after a write that failed, and for a write only when it is next in a
plan. -/
structure Attempts (settings : Settings) (ns name : String) (h : List Exchange)
    (q : Query) : Prop where
  clean : Clean name h
  planned : q.isWrite = true →
    ∃ p : Plan, p.Sourced settings ns name h ∧ ∃ rest, p.writes ns name = written h ++ q :: rest

/-- How a pass ends: with all writes of a plan done, with none because it got no certificate or no
connection, or with one that failed. -/
inductive Ends (settings : Settings) (ns name : String) (h : List Exchange) : Result → Prop
  | finished (p : Plan) (sourced : p.Sourced settings ns name h) (clean : Clean name h)
      (all : written h = p.writes ns name) : Ends settings ns name h (.ok .provisioned)
  | uncertified {result : Result} (early : result ≠ .ok .provisioned) (none : Early h) :
      Ends settings ns name h result
  | unconnected {f : Failure} (connection : Connection) (none : written h = [])
      (failure : ⟨.workload connection, .error f⟩ ∈ h) : Ends settings ns name h (.error f)
  | failed {f : Failure} (before : List Exchange) (x : Exchange) (last : h = before ++ [x])
      (failure : x.failure? name = some f) : Ends settings ns name h (.error f)

theorem Ends.cases_unfinished {settings : Settings} {result : Result}
    (ends : Ends settings ns name h result) :
    (result = .ok .provisioned ∧ Clean name h ∧
        ∃ p : Plan, p.Sourced settings ns name h ∧ written h = p.writes ns name) ∨
      (result ≠ .ok .provisioned ∧ written h = []) ∨
      ∃ f before x, result = .error f ∧ h = before ++ [x] ∧ x.failure? name = some f := by
  cases ends with
  | finished p sourced clean all => exact .inl ⟨rfl, clean, p, sourced, all⟩
  | uncertified early none => exact .inr (.inl ⟨early, none.none⟩)
  | unconnected connection none failure => exact .inr (.inl ⟨by simp, none⟩)
  | failed before x last failure => exact .inr (.inr ⟨_, before, x, rfl, last, failure⟩)

variable {settings : Settings} {result : Result}

theorem Ends.of_failure {f : Failure} (ends : Ends settings ns name (h ++ [x]) result)
    (hf : x.failure? name = some f) : result = .error f := by
  have hmem : x ∈ h ++ [x] := List.mem_append_right h List.mem_cons_self
  rcases ends.cases_unfinished with ⟨_, clean, _⟩ | ⟨_, none⟩ | ⟨f', before, y, rfl, last, failure⟩
  · rw [clean x hmem] at hf
    cases hf
  · rw [clean_of_written none x hmem] at hf
    cases hf
  · obtain ⟨-, hxy⟩ := List.append_inj' last rfl
    cases hxy
    rw [hf] at failure
    cases failure
    rfl

theorem Ends.provisioned_iff (ends : Ends settings ns name h result) : result = .ok .provisioned ↔
    Clean name h ∧ ∃ p : Plan, p.Grounded ns name h ∧ written h = p.writes ns name := by
  rcases ends.cases_unfinished with ⟨done, clean, p, sourced, all⟩ | ⟨early, none⟩
    | ⟨f, before, x, rfl, last, failure⟩
  · exact iff_of_true done ⟨clean, p, sourced.grounded, all⟩
  · refine iff_of_false early ?_
    rintro ⟨-, p, -, all⟩
    rw [none] at all
    cases all
  · refine iff_of_false (by simp) ?_
    rintro ⟨clean, -⟩
    rw [clean x (last ▸ List.mem_append_right before List.mem_cons_self)] at failure
    cases failure

theorem Ends.written_eq_nil {outcome : Outcome} (ends : Ends settings ns name h (.ok outcome))
    (early : outcome ≠ .provisioned) : written h = [] := by
  rcases ends.cases_unfinished with ⟨done, _⟩ | ⟨_, none⟩ | ⟨f, _, _, failed, _⟩
  · exact absurd (Except.ok.inj done) early
  · exact none
  · cases failed

end HollowNode.Pass
