import HollowNode.Proofs.Cluster.Clusters
import HollowNode.Proofs.Pass.Provision

namespace HollowNode

open Api Pass Simulation

def Api.Machine.provided (m : Machine) (id : String) : Machine :=
  { m with spec := { m.spec with providerId := some id } }

def Api.KubemarkMachine.readied (m : KubemarkMachine) (id : String) : KubemarkMachine :=
  { m with status := some ⟨true, some id⟩ }

namespace Pass

variable {settings : Settings} {first : Clusters} {ns name : String} {p p' : Plan}
  {h : List Exchange}

structure Plan.Fits (settings : Settings) (first : Clusters) (ns name : String)
    (p : Plan) : Prop where
  machine : first.management.kubemarkMachines.get? ns name = some p.machine
  owner : ∃ ownerName, ownerName? p.machine = some ownerName ∧
    first.management.machines.get? ns ownerName = some p.owner
  kubeconfig : ∃ clusterName text access, p.owner.clusterName = some clusterName ∧
    (first.management.secrets.get? ns (kubeconfigSecretName clusterName)).bind
      (·.get? kubeconfigSecretKey) = some text ∧
    ClusterAccess.ofText text = .ok access ∧
    p.bundle.kubeconfig = (Kubeconfig.withCertificate access Workload.identityCertPath).write
  named : p.bundle.name = name
  deployment : Workload.deployment settings.kubemarkImage p.machine p.bundle = .ok p.deployment

theorem deployment_congr {image : String} {machine : KubemarkMachine} {b b' : Workload.Bundle}
    (h : b.name = b'.name) :
    Workload.deployment image machine b = Workload.deployment image machine b' := by
  unfold Workload.deployment
  rw [h]

def Plan.withCertPem (p : Plan) (certPem : String) : Plan :=
  { p with bundle := { p.bundle with certPem } }

theorem Plan.Fits.unique (fits : p.Fits settings first ns name)
    (fits' : p'.Fits settings first ns name) : p' = p.withCertPem p'.bundle.certPem := by
  obtain ⟨machine, owner, ⟨bundleName, kubeconfig, certPem⟩, deployment⟩ := p
  obtain ⟨machine', owner', ⟨bundleName', kubeconfig', certPem'⟩, deployment'⟩ := p'
  obtain rfl : machine = machine' := Option.some.inj (fits.machine.symm.trans fits'.machine)
  obtain ⟨ownerName, hname, howner⟩ := fits.owner
  obtain ⟨ownerName', hname', howner'⟩ := fits'.owner
  obtain rfl : ownerName = ownerName' := Option.some.inj (hname.symm.trans hname')
  obtain rfl : owner = owner' := Option.some.inj (howner.symm.trans howner')
  obtain ⟨clusterName, text, access, hcluster, htext, haccess, hwritten⟩ := fits.kubeconfig
  obtain ⟨clusterName', text', access', hcluster', htext', haccess', hwritten'⟩ := fits'.kubeconfig
  obtain rfl : clusterName = clusterName' := Option.some.inj (hcluster.symm.trans hcluster')
  obtain rfl : text = text' := Option.some.inj (htext.symm.trans htext')
  obtain rfl : access = access' := Except.ok.inj (haccess.symm.trans haccess')
  obtain rfl : kubeconfig = kubeconfig' := hwritten.trans hwritten'.symm
  obtain rfl : bundleName = bundleName' := fits.named.trans fits'.named.symm
  have hsame : Workload.deployment settings.kubemarkImage machine ⟨bundleName, kubeconfig,
      certPem'⟩ = .ok deployment :=
    (deployment_congr rfl).trans fits.deployment
  obtain rfl : deployment = deployment' := Except.ok.inj (hsame.symm.trans fits'.deployment)
  rfl

/-- What a pass may have been shown of clusters that were in some state at first, before any of its
writes or after. -/
def Exchange.Shown (first : Clusters) (ns name : String) : Exchange → Prop
  | ⟨.kubemarkMachine ns' name', .ok (some m)⟩ => ns' = ns → name' = name →
    m.isReady = true ∨ first.management.kubemarkMachines.get? ns name = some m
  | ⟨.machine ns' ownerName, .ok (some m)⟩ =>
    ∃ m₀, first.management.machines.get? ns' ownerName = some m₀ ∧ m.metadata = m₀.metadata ∧
    m.clusterName = m₀.clusterName
  | ⟨.secretValue ns' secret key, .ok text⟩ =>
    (first.management.secrets.get? ns' secret).bind (·.get? key) = text
  | _ => True

theorem Plan.Sourced.fits (g : p.Sourced settings ns name h)
    (shown : ∀ x ∈ h, x.Shown first ns name) :
    ∃ p₀ : Plan, p₀.Fits settings first ns name ∧ p₀.writes ns name = p.writes ns name := by
  have hmachine : first.management.kubemarkMachines.get? ns name = some p.machine := by
    refine (shown _ g.machine rfl rfl).resolve_left ?_
    rw [g.pending]
    exact Bool.false_ne_true
  obtain ⟨ownerName, hname, howner⟩ := g.owner
  obtain ⟨owner, hfirst, hmetadata, hcluster⟩ := shown _ howner
  obtain ⟨clusterName, text, access, hclusterName, hsecret, haccess⟩ := g.kubeconfig
  refine ⟨{ p with owner }, ⟨hmachine, ⟨ownerName, hname, hfirst⟩, ?_, g.named, g.deployment⟩, ?_⟩
  · exact ⟨clusterName, text, access, hcluster.symm.trans hclusterName, shown _ hsecret, haccess⟩
  · simp only [Plan.writes, hmetadata]

end Pass

namespace Clusters

variable {settings : Settings} {first c d : Clusters} {ns name : String} {p p' : Plan} {q : Query}
  {h : List Exchange} {i k : Nat}

/-- Nothing was done for a machine yet, and API servers show objects under their own names. -/
structure Fresh (first : Clusters) (ns name : String) : Prop where
  machine : ∀ m, first.management.kubemarkMachines.get? ns name = some m →
    m.isReady = false ∧ m.metadata.nameAny = name
  owner : ∀ ownerName m, first.management.machines.get? ns ownerName = some m →
    m.metadata.ns.getD ns = ns ∧ m.metadata.nameAny = ownerName
  configMap : first.configMaps.get? "kube-system" name = none
  deployment : first.deployments.get? "kube-system" name = none

def after (first : Clusters) (ns name : String) (p : Plan) (k : Nat) : Clusters :=
  let id := "kubemark://" ++ name
  { management := { first.management with
      machines :=
        if 2 < k then first.management.machines.put ns p.owner.metadata.nameAny
          (p.owner.provided id)
        else first.management.machines
      kubemarkMachines :=
        if 3 < k then first.management.kubemarkMachines.put ns name (p.machine.readied id)
        else first.management.kubemarkMachines }
    configMaps :=
      if 0 < k then first.configMaps.put "kube-system" name p.bundle.configMap else first.configMaps
    deployments :=
      if 1 < k then first.deployments.put "kube-system" name p.deployment else first.deployments }

theorem after_zero (first : Clusters) (ns name : String) (p : Plan) :
    first.after ns name p 0 = first := rfl

theorem create_of_none {α : Type} {objects : Table α} {metadata : Metadata} (object : α)
    {ns name : String} (hns : metadata.ns = some ns) (hname : metadata.name = some name)
    (hnone : objects.get? ns name = none) :
    create objects metadata object = (.ok .created, objects.put ns name object) := by
  simp [create, hns, hname, hnone, Kube.Workload.outcome]

theorem create_of_some {α : Type} {objects : Table α} {metadata : Metadata} (object : α)
    {ns name : String} {there : α} (hns : metadata.ns = some ns) (hname : metadata.name = some name)
    (hsome : objects.get? ns name = some there) :
    create objects metadata object = (.ok .alreadyExists, objects) := by
  simp [create, hns, hname, hsome, Kube.Workload.outcome, Kube.Workload.conflict]

theorem respond_configMap (fresh : first.Fresh ns name)
    (fits' : p'.Fits settings first ns name) (same : k = 0 → p' = p) :
    (∃ creation, ((first.after ns name p k).respond (.createConfigMap p'.bundle.configMap)).1 =
      .ok creation) ∧ ((first.after ns name p k).respond (.createConfigMap p'.bundle.configMap)).2 =
        first.after ns name p (max k 1) := by
  have hname : p'.bundle.configMap.metadata.name = some name := congrArg some fits'.named
  rcases Nat.eq_zero_or_pos k with rfl | hk
  · -- Only the first ConfigMap counts, so the certificate in it is that of the plan.
    obtain rfl := same rfl
    have hcreate :=
      create_of_none p'.bundle.configMap (rfl : _ = some "kube-system") hname fresh.configMap
    simp [respond, after, hcreate]
  · have hsome :
        (first.after ns name p k).configMaps.get? "kube-system" name = some p.bundle.configMap := by
      simp [after, hk]
    have hcreate := create_of_some p'.bundle.configMap (rfl : _ = some "kube-system") hname hsome
    have hmax : max k 1 = k := by omega
    simp [respond, hcreate, hmax]

theorem respond_deployment (fresh : first.Fresh ns name) (fits : p.Fits settings first ns name)
    (hk : 1 ≤ k) :
    (∃ creation, ((first.after ns name p k).respond (.createDeployment p.deployment)).1 =
      .ok creation) ∧ ((first.after ns name p k).respond (.createDeployment p.deployment)).2 =
      first.after ns name p (max k 2) := by
  have hns : p.deployment.metadata.ns = some "kube-system" := (deployment_named fits.deployment).1
  have hname : p.deployment.metadata.name = some name := by
    rw [(deployment_named fits.deployment).2, (fresh.machine _ fits.machine).2]
  rcases Nat.eq_or_lt_of_le hk with rfl | hk
  · have hcreate := create_of_none p.deployment hns hname fresh.deployment
    simp [respond, after, hcreate]
  · have hsome :
        (first.after ns name p k).deployments.get? "kube-system" name = some p.deployment := by
      simp [after, hk]
    have hcreate := create_of_some p.deployment hns hname hsome
    have hmax : max k 2 = k := by omega
    simp [respond, hcreate, hmax]

theorem respond_providerId (fresh : first.Fresh ns name) (fits : p.Fits settings first ns name)
    (hk : 2 ≤ k) :
    let write : Query := .setProviderId (p.owner.metadata.ns.getD ns) p.owner.metadata.nameAny
      ("kubemark://" ++ name)
    ((first.after ns name p k).respond write).1 = .ok () ∧
      ((first.after ns name p k).respond write).2 = first.after ns name p (max k 3) := by
  obtain ⟨ownerName, _, howner⟩ := fits.owner
  obtain ⟨hns, hname⟩ := fresh.owner _ _ howner
  rw [← hname] at howner
  rcases Nat.eq_or_lt_of_le hk with rfl | hk
  · simp [respond, World.respond, after, hns, howner, Machine.provided]
  · have hmax : max k 3 = k := by omega
    simp [respond, World.respond, after, hns, hk, hmax, Machine.provided]

theorem respond_ready (fits : p.Fits settings first ns name) (hk : 3 ≤ k) :
    let write : Query := .markReady ns name ("kubemark://" ++ name)
    ((first.after ns name p k).respond write).1 = .ok () ∧
      ((first.after ns name p k).respond write).2 = first.after ns name p (max k 4) := by
  rcases Nat.eq_or_lt_of_le hk with rfl | hk
  · simp [respond, World.respond, after, fits.machine, KubemarkMachine.readied]
  · have hmax : max k 4 = k := by omega
    simp [respond, World.respond, after, hk, hmax, KubemarkMachine.readied]

theorem respond_write (fresh : first.Fresh ns name) (fits : p.Fits settings first ns name)
    (fits' : p'.Fits settings first ns name) (same : k = 0 → p' = p)
    (hq : (p'.writes ns name)[i]? = some q) (hik : i ≤ k) :
    Exchange.failure? name ⟨q, ((first.after ns name p k).respond q).1⟩ = none ∧
      ((first.after ns name p k).respond q).2 = first.after ns name p (max k (i + 1)) := by
  match i with
  | 0 =>
      obtain rfl : .createConfigMap p'.bundle.configMap = q := by simpa [Plan.writes] using hq
      obtain ⟨⟨creation, told⟩, done⟩ := respond_configMap fresh fits' same
      exact ⟨by rw [told]; rfl, done⟩
  | 1 =>
      obtain rfl : .createDeployment p'.deployment = q := by simpa [Plan.writes] using hq
      rw [fits.unique fits', Plan.withCertPem]
      obtain ⟨⟨creation, told⟩, done⟩ := respond_deployment fresh fits hik
      exact ⟨by rw [told]; rfl, done⟩
  | 2 =>
      obtain rfl : .setProviderId (p'.owner.metadata.ns.getD ns) p'.owner.metadata.nameAny
          ("kubemark://" ++ name) = q := by simpa [Plan.writes] using hq
      rw [fits.unique fits', Plan.withCertPem]
      obtain ⟨told, done⟩ := respond_providerId fresh fits hik
      exact ⟨by rw [told]; rfl, done⟩
  | 3 =>
      obtain rfl : .markReady ns name ("kubemark://" ++ name) = q := by simpa [Plan.writes] using hq
      obtain ⟨told, done⟩ := respond_ready fits hik
      exact ⟨by rw [told]; rfl, done⟩
  | i + 4 => simp [Plan.writes] at hq

/-- Some first writes of a plan have taken effect. -/
inductive Stage (settings : Settings) (first : Clusters) (ns name : String) : Nat → Clusters → Prop
  | untouched : Stage settings first ns name 0 first
  | planned (p : Plan) (fits : p.Fits settings first ns name) {k : Nat} (some : 0 < k)
      (le : k ≤ 4) :
      Stage settings first ns name k (first.after ns name p k)

theorem Stage.write (fresh : first.Fresh ns name) (stage : Stage settings first ns name k c)
    (fits : p.Fits settings first ns name) (hq : (p.writes ns name)[i]? = some q) (hik : i ≤ k) :
    Exchange.failure? name ⟨q, (c.respond q).1⟩ = none ∧
    Stage settings first ns name (max k (i + 1)) (c.respond q).2 ∧
      (i < k → (c.respond q).2 = c) := by
  have hi : i < 4 := (List.getElem?_eq_some_iff.1 hq).1
  cases stage with
  | untouched =>
      obtain ⟨told, done⟩ := respond_write fresh fits fits (fun _ => rfl) hq hik
      rw [after_zero] at told done
      refine ⟨told, ?_, fun hlt => absurd hlt (Nat.not_lt_zero i)⟩
      rw [done]
      exact .planned p fits (by omega) (by omega)
  | planned p' fits' hk hle =>
      obtain ⟨told, done⟩ :=
        respond_write fresh fits' fits (fun h => absurd h (Nat.ne_of_gt hk)) hq hik
      refine ⟨told, ?_, fun hlt => ?_⟩
      · rw [done]
        exact .planned p' fits' (by omega) (by omega)
      · rw [done]
        congr 1
        omega

theorem Stage.secrets (stage : Stage settings first ns name k c) :
    c.management.secrets = first.management.secrets := by
  cases stage <;> rfl

theorem Stage.kubemarkMachine {m : KubemarkMachine} (stage : Stage settings first ns name k c)
    (hm : c.management.kubemarkMachines.get? ns name = some m) :
    m.isReady = true ∨ first.management.kubemarkMachines.get? ns name = some m := by
  cases stage with
  | untouched => exact .inr hm
  | planned p fits hk hle =>
      by_cases h3 : 3 < k
      · simp only [after, if_pos h3, Table.get?_put_self, Option.some.injEq] at hm
        rw [← hm]
        exact .inl rfl
      · simp only [after, if_neg h3] at hm
        exact .inr hm

theorem Stage.machine {ns' ownerName : String} {m : Machine} (fresh : first.Fresh ns name)
    (stage : Stage settings first ns name k c)
    (hm : c.management.machines.get? ns' ownerName = some m) :
    ∃ m₀, first.management.machines.get? ns' ownerName = some m₀ ∧ m.metadata = m₀.metadata ∧
      m.clusterName = m₀.clusterName := by
  cases stage with
  | untouched => exact ⟨m, hm, rfl, rfl⟩
  | planned p fits hk hle =>
      by_cases h2 : 2 < k
      · simp only [after, if_pos h2, Table.get?_put] at hm
        split at hm
        next hself =>
          -- The owner itself: only its provider ID is new.
          obtain ⟨rfl, rfl⟩ := Prod.mk.inj hself
          obtain ⟨ownerName, -, howner⟩ := fits.owner
          cases hm
          refine ⟨p.owner, ?_, rfl, rfl⟩
          rw [(fresh.owner _ _ howner).2]
          exact howner
        next => exact ⟨m, hm, rfl, rfl⟩
      · simp only [after, if_neg h2] at hm
        exact ⟨m, hm, rfl, rfl⟩

theorem Stage.shown (fresh : first.Fresh ns name)
    (stage : Stage settings first ns name k c) (q : Query) :
    Exchange.Shown first ns name ⟨q, (c.respond q).1⟩ := by
  cases q with
  | kubemarkMachine ns' name' =>
      cases hm : c.management.kubemarkMachines.get? ns' name' with
      | none => simp [respond, World.respond, Exchange.Shown, hm]
      | some m =>
          simp only [respond, World.respond, hm, Exchange.Shown]
          rintro rfl rfl
          exact stage.kubemarkMachine hm
  | machine ns' ownerName =>
      cases hm : c.management.machines.get? ns' ownerName with
      | none => simp [respond, World.respond, Exchange.Shown, hm]
      | some m =>
          simp only [respond, World.respond, hm, Exchange.Shown]
          exact stage.machine fresh hm
  | secretValue ns' secret key =>
      simp only [respond, World.respond, Exchange.Shown, stage.secrets]
  | _ => trivial

end Clusters

end HollowNode
