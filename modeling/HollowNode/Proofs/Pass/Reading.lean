import HollowNode.Proofs.Pass.Writes

namespace HollowNode.Pass

open Api

variable {α β : Type} {ns name : String} {h : List Exchange}

/-- What a pass asks until it knows all that it needs: it reads from the management cluster, and it
forgets the session of a machine that is gone. -/
def Query.isLookup : Query → Bool
  | kubemarkMachine .. | machine .. | cluster .. | kubeadmConfig .. | secretValue .. | release _ =>
    true
  | csrClient _ | workload _ | createConfigMap _ | createDeployment _ | setProviderId ..
      | markReady .. | bootstrap _
  | clock | observe .. => false

theorem Query.isRead_of_isLookup {q : Query} (hq : q.isLookup = true) : q.isRead = true := by
  cases q with
  | kubemarkMachine | machine | cluster | kubeadmConfig | secretValue | release => rfl
  | _ => cases hq

/-- How a pass ends that does not come to know all that it needs: its machine is gone, and so is the
session of it then; the machine is ready, as it was told last; something is missing, or something
fails. -/
inductive Declined (ns name : String) : List Exchange → Result → Prop
  | absent (t : List Exchange) : Declined ns name
      (t ++ [⟨.release (Csr.objectKey ns name), ()⟩]) (.ok .absent)
  | ready (t : List Exchange) {m : KubemarkMachine} (ready : m.isReady = true) :
      Declined ns name (t ++ [⟨.kubemarkMachine ns name, .ok (some m)⟩]) (.ok .alreadyReady)
  | deferred (h : List Exchange) (reason : String) : Declined ns name h (.ok (.deferred reason))
  | failed (h : List Exchange) (f : Failure) : Declined ns name h (.error f)

attribute [simp] Declined.deferred Declined.failed

theorem Declined.ne_provisioned {result : Result} (d : Declined ns name h result) :
    result ≠ .ok .provisioned := by
  cases d with
  | _ => simp

namespace Step

/-- A part of a pass that only reads and goes on only where it may. -/
def Reads (s : Step α) (goesOn : List Exchange → α → Prop) (h : List Exchange) : Prop :=
  s.Meets (fun _ q => q.isRead = true) goesOn (fun _ result => result ≠ .ok .provisioned) h

theorem Reads.bind {G : List Exchange → α → Prop} {G' : List Exchange → β → Prop} {s : Step α}
    {f : α → Step β} (hs : s.Reads G h) (hf : ∀ t a, h ⊆ t → G t a → (f a).Reads G' t) :
    (s >>= f).Reads G' h := by
  have keeps : ∀ t (x : Exchange), h ⊆ t → h ⊆ t ++ [x] := fun t x hsub =>
    List.Subset.trans hsub (List.subset_append_left t [x])
  exact (meets_bind s f).2 (hs.imp (fun t x _ => keeps t x) (fun _ _ hq _ => hq)
    (fun t a ha hsub => hf t a hsub ha) (fun _ _ hr _ => hr) (List.Subset.refl h))

theorem reads_ask {q : Query} (hread : q.isRead = true) :
    Reads (liftM (ask q)) (fun t answer => t = h ++ [⟨q, answer⟩]) h :=
      (meets_ask q).2 ⟨hread, fun _ => rfl⟩

theorem reads_orFail (e : Except Failure α) :
    (orFail e).Reads (fun t a => t = h ∧ e = .ok a) h := by
  cases e with
  | error f => simp [Reads]
  | ok a => simp [Reads]

theorem reads_orFail_mapError {ε : Type} (e : Except ε α) (f : ε → Failure) :
    (orFail (e.mapError f)).Reads (fun t a => t = h ∧ e = .ok a) h := by
  cases e with
  | error fault =>
      have herror : (Except.error fault : Except ε α).mapError f = .error (f fault) := rfl
      simp [Reads, herror]
  | ok a =>
      have hok : (Except.ok a : Except ε α).mapError f = .ok a := rfl
      simp [Reads, hok]

def Looks (ns name : String) (s : Step α) (goesOn : List Exchange → α → Prop)
    (h : List Exchange) : Prop :=
  s.Meets (fun _ q => q.isLookup = true) goesOn (Declined ns name) h

theorem Looks.bind {G : List Exchange → α → Prop} {G' : List Exchange → β → Prop} {s : Step α}
    {f : α → Step β} (hs : s.Looks ns name G h)
    (hf : ∀ t a, h ⊆ t → G t a → (f a).Looks ns name G' t) : (s >>= f).Looks ns name G' h := by
  have keeps : ∀ t (x : Exchange), h ⊆ t → h ⊆ t ++ [x] := fun t x hsub =>
    List.Subset.trans hsub (List.subset_append_left t [x])
  exact (meets_bind s f).2 (hs.imp (fun t x _ => keeps t x) (fun _ _ hq _ => hq)
    (fun t a ha hsub => hf t a hsub ha) (fun _ _ hr _ => hr) (List.Subset.refl h))

theorem looks_orFail_mapError {ε : Type} (e : Except ε α) (f : ε → Failure) :
    (orFail (e.mapError f)).Looks ns name (fun t a => t = h ∧ e = .ok a) h := by
  cases e with
  | error fault => exact (meets_orFail _).2 (.failed h (f fault))
  | ok a => exact (meets_orFail (.ok a)).2 ⟨rfl, rfl⟩

theorem pendingMachine_looks : (pendingMachine ns name).Looks ns name
    (fun t m => ⟨.kubemarkMachine ns name, .ok (some m)⟩ ∈ t ∧ m.isReady = false) h := by
  unfold pendingMachine Looks
  rw [meets_bind]
  refine (meets_ask _).2 ⟨rfl, fun answer => ?_⟩
  rcases answer with f | _ | m
  · simp
  · simp only [meets_bind, meets_orFail, meets_finish]
    exact (meets_ask (.release _)).2 ⟨rfl, fun _ => .absent _⟩
  · simp only [meets_bind, meets_orFail]
    cases hready : m.isReady with
    | true => exact .ready h hready
    | false => simp [hready]

theorem ownerOf_looks (machine : KubemarkMachine) :
    (ownerOf ns name machine).Looks ns name
      (fun t r => (∃ ownerName, ownerName? machine = some ownerName ∧
        ⟨.machine ns ownerName, .ok (some r.1)⟩ ∈ t) ∧ r.1.clusterName = some r.2) h := by
  unfold ownerOf Looks
  cases hname : ownerName? machine with
  | none => simp
  | some ownerName =>
      simp only [meets_bind]
      refine (meets_ask _).2 ⟨rfl, fun answer => ?_⟩
      rcases answer with f | _ | owner
      · simp
      · simp
      simp only [meets_orFail]
      cases hcluster : owner.clusterName with
      | none => simp
      | some clusterName =>
          simp only [meets_bind]
          refine (meets_ask _).2 ⟨rfl, fun answer => ?_⟩
          rcases answer with f | _ | cluster
          · simp
          · simp
          cases hready : cluster.infrastructureReady with
          | false => simp [hready]
          | true =>
              cases owner.spec.bootstrap.dataSecretName with
              | none => simp [hready]
              | some secretName => simp [hready, hcluster]

theorem tokenOf_looks (ownerName : String) (owner : Machine) :
    (tokenOf ns ownerName owner).Looks ns name (fun _ _ => True) h := by
  unfold tokenOf Looks
  cases owner.spec.bootstrap.configRef with
  | none => simp
  | some ref =>
      simp only [meets_bind]
      refine (meets_ask _).2 ⟨rfl, fun answer => ?_⟩
      rcases answer with f | _ | config
      · simp
      · simp
      cases htoken : config.bootstrapToken with
      | none => simp [htoken]
      | some token => simp [htoken]

theorem kubeconfigOf_looks (clusterName : String) :
    (kubeconfigOf ns clusterName).Looks ns name (fun t text =>
      ⟨.secretValue ns (kubeconfigSecretName clusterName) kubeconfigSecretKey,
        .ok (some text)⟩ ∈ t) h := by
  unfold kubeconfigOf Looks
  simp only [meets_bind]
  refine (meets_ask _).2 ⟨rfl, fun answer => ?_⟩
  rcases answer with f | _ | kubeconfig
  · simp
  · simp
  · simp

structure Resolved (ns name : String) (h : List Exchange) (deps : Dependencies) : Prop where
  machine : ⟨.kubemarkMachine ns name, .ok (some deps.machine)⟩ ∈ h
  pending : deps.machine.isReady = false
  owner : ∃ ownerName, ownerName? deps.machine = some ownerName ∧
    ⟨.machine ns ownerName, .ok (some deps.owner)⟩ ∈ h
  kubeconfig : ∃ clusterName text, deps.owner.clusterName = some clusterName ∧
    ⟨.secretValue ns (kubeconfigSecretName clusterName) kubeconfigSecretKey, .ok (some text)⟩ ∈ h ∧
    ClusterAccess.ofText text = .ok deps.access

theorem Resolved.later {t : List Exchange} {deps : Dependencies} (r : Resolved ns name h deps)
    (hsub : h ⊆ t) : Resolved ns name t deps where
  machine := hsub r.machine
  pending := r.pending
  owner := by
    obtain ⟨ownerName, hname, howner⟩ := r.owner
    exact ⟨ownerName, hname, hsub howner⟩
  kubeconfig := by
    obtain ⟨clusterName, text, hcluster, hsecret, haccess⟩ := r.kubeconfig
    exact ⟨clusterName, text, hcluster, hsub hsecret, haccess⟩

theorem resolve_looks : (resolve ns name).Looks ns name (Resolved ns name) h := by
  unfold resolve
  refine pendingMachine_looks.bind fun t₁ machine _ ⟨hmachine, pending⟩ => ?_
  refine (ownerOf_looks machine).bind fun t₂ r hsub₂ ⟨howner, hcluster⟩ => ?_
  refine (tokenOf_looks _ r.1).bind fun t₃ token hsub₃ _ => ?_
  refine (kubeconfigOf_looks r.2).bind fun t₄ kubeconfig hsub₄ hsecret => ?_
  refine (looks_orFail_mapError _ _).bind fun t₅ access hsub₅ ⟨_, haccess⟩ => ?_
  have hsub : t₂ ⊆ t₅ := fun _ hx => hsub₅ (hsub₄ (hsub₃ hx))
  obtain ⟨ownerName, hname, howner⟩ := howner
  exact (meets_pure _).2 ⟨hsub (hsub₂ hmachine), pending, ⟨ownerName, hname, hsub howner⟩,
    r.2, kubeconfig, hcluster, hsub₅ hsecret, haccess⟩

theorem resolve_reads : (resolve ns name).Reads (Resolved ns name) h :=
  resolve_looks.mono (fun _ _ hq => Query.isRead_of_isLookup hq) (fun _ _ hr => hr) fun _ _ hd =>
    hd.ne_provisioned

end Step

end HollowNode.Pass
