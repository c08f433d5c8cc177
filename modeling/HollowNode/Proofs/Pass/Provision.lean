import HollowNode.Proofs.Pass.Reading

namespace HollowNode.Pass

open Api Step

variable {settings : Settings} {α β : Type} {ns name : String} {h t : List Exchange}

theorem Step.Reads.bind_meets {G : List Exchange → α → Prop}
    {G' : List Exchange → β → Prop} {s : Step α} {f : α → Step β} (hs : s.Reads G h)
    (early : Early h)
    (hf : ∀ t a, h ⊆ t → Early t → G t a →
      (f a).Meets (Attempts settings ns name) G' (Ends settings ns name) t) :
    (s >>= f).Meets (Attempts settings ns name) G' (Ends settings ns name) h := by
  refine (meets_bind s f).2
    (hs.imp (P := fun t => h ⊆ t ∧ Early t) ?_ ?_ ?_ ?_ ⟨List.Subset.refl h, early⟩)
  · rintro t x hread ⟨hsub, early⟩
    exact ⟨List.Subset.trans hsub (List.subset_append_left ..), early.read hread⟩
  · rintro t q hread ⟨-, early⟩
    exact ⟨clean_of_written early.none,
      fun hwrite => by simp [Query.isWrite_of_isRead hread] at hwrite⟩
  · rintro t a ha ⟨hsub, early⟩
    exact hf t a hsub early ha
  · rintro t result hresult ⟨-, early⟩
    exact .uncertified hresult early

theorem Attempts.of_unwritten {q : Query} (none : written h = []) (hq : q.isWrite = false) :
    Attempts settings ns name h q where
  clean := clean_of_written none
  planned hwrite := by simp [hq] at hwrite

theorem identityFor_meets {request : Csr.IdentityRequest}
    {G : List Exchange → Bootstrap.ClientIdentity → Prop} (early : Early h)
    (goes : ∀ t identity, h ⊆ t → written t = [] →
      ⟨.bootstrap request, .ok (.issued identity)⟩ ∈ t → G t identity) :
    (identityFor request).Meets (Attempts settings ns name) G (Ends settings ns name) h := by
  unfold identityFor
  simp only [meets_bind]
  refine (meets_ask _).2 ⟨.of_unwritten early.none rfl, fun started => ?_⟩
  have early₁ := early.read (x := ⟨.clock, started⟩) rfl
  refine (meets_ask _).2 ⟨.of_unwritten early₁.none rfl, fun answer => ?_⟩
  have none₂ : written ((h ++ [⟨.clock, started⟩]) ++ [⟨.bootstrap request, answer⟩]) = [] :=
    (written_of_read rfl).trans early₁.none
  refine (meets_ask _).2 ⟨.of_unwritten none₂ rfl, fun ended => ?_⟩
  have none₃ := (written_of_read (x := ⟨.clock, ended⟩) rfl).trans none₂
  -- Unless the certificate was issued, the pass has asked for it in vain when it ends.
  have unissued (h₂ : ∀ identity, answer ≠ .ok (.issued identity)) := by
    refine (early₁.append (x := ⟨.bootstrap request, answer⟩) rfl
      fun request' identity heq => ?_).read (x := ⟨.clock, ended⟩) rfl
    cases heq
    exact h₂ identity rfl
  rcases answer with fault | identity | retryAfter
  · simp only [meets_bind, meets_fail]
    refine (meets_ask (.observe ..)).2 ⟨.of_unwritten none₃ rfl, fun _ => ?_⟩
    exact .uncertified (by simp) ((unissued (by simp)).read rfl)
  · simp only [meets_bind, meets_pure]
    refine (meets_ask (.observe ..)).2 ⟨.of_unwritten none₃ rfl, fun _ => ?_⟩
    exact goes _ identity (by simp) ((written_of_read rfl).trans none₃) (by simp)
  · simp only [meets_bind, meets_finish]
    refine (meets_ask (.observe ..)).2 ⟨.of_unwritten none₃ rfl, fun _ => ?_⟩
    exact .uncertified (by simp) ((unissued (by simp)).read rfl)

theorem write_meets {G : List Exchange → α → Prop} {p : Plan} {q : Query} {rest : List Query}
    {read : q.Answer → Except Failure α} (hwrite : q.isWrite = true)
    (hread : ∀ answer,
      Exchange.failure? name ⟨q, answer⟩ = Except.rec some (fun _ => none) (read answer))
    (g : p.Sourced settings ns name h) (clean : Clean name h)
    (hnext : p.writes ns name = written h ++ q :: rest)
    (hgoes : ∀ t a, h ⊆ t → Clean name t → written t = written h ++ [q] → G t a) :
    Step.Meets (Attempts settings ns name)
      (fun t answer => (orFail (read answer)).Meets (Attempts settings ns name) G
        (Ends settings ns name) t)
      (Ends settings ns name) (liftM (ask q)) h := by
  refine (meets_ask q).2 ⟨⟨clean, fun _ => ⟨p, g, rest, hnext⟩⟩,
    fun answer => (meets_orFail _).2 ?_⟩
  have htold := hread answer
  cases hanswer : read answer with
  | error f =>
      rw [hanswer] at htold
      exact .failed h ⟨q, answer⟩ rfl htold
  | ok a =>
      rw [hanswer] at htold
      exact hgoes _ a (List.subset_append_left ..) (clean.append htold) (written_of_write hwrite)

theorem create_meets {deps : Dependencies} {p : Plan} (g : p.Sourced settings ns name h)
    (none : written h = []) :
    (create settings name deps p.bundle p.deployment).Meets (Attempts settings ns name)
      (fun t _ => h ⊆ t ∧ Clean name t ∧
        written t = [.createConfigMap p.bundle.configMap, .createDeployment p.deployment])
      (Ends settings ns name) h := by
  unfold create
  simp only [meets_bind]
  let connection : Connection := ⟨deps.kubeconfig, settings.remoteClientTimeout⟩
  refine (meets_ask (.workload connection)).2 ⟨.of_unwritten none rfl, fun connected => ?_⟩
  have none₁ : written (h ++ [⟨.workload connection, connected⟩]) = [] :=
    (written_of_read rfl).trans none
  cases connected with
  | error f => exact .unconnected connection none₁ (List.mem_append_right h List.mem_cons_self)
  | ok _ =>
      have g₁ := g.later (List.subset_append_left h [⟨.workload connection, .ok ()⟩])
      refine write_meets rfl (fun answer => by cases answer <;> rfl) g₁ (clean_of_written none₁)
        (by rw [none₁]; rfl) fun t₂ _ hsub₂ clean₂ written₂ => ?_
      rw [none₁] at written₂
      refine write_meets rfl (fun answer => by cases answer <;> rfl) (g₁.later hsub₂) clean₂
        (by rw [written₂]; rfl) fun t₃ _ hsub₃ clean₃ written₃ => ?_
      rw [written₂] at written₃
      exact (meets_pure _).2 ⟨fun _ hx => hsub₃ (hsub₂ (List.mem_append_left _ hx)),
        clean₃, written₃⟩

theorem report_meets {p : Plan} (g : p.Sourced settings ns name h) (clean : Clean name h)
    (created : written h = [.createConfigMap p.bundle.configMap, .createDeployment p.deployment]) :
    (report ns name p.owner).Meets (Attempts settings ns name)
      (fun t _ => h ⊆ t ∧ Clean name t ∧ written t = p.writes ns name)
        (Ends settings ns name) h := by
  unfold report
  simp only [meets_bind]
  refine write_meets rfl (fun answer => by cases answer <;> rfl) g clean (by rw [created]; rfl)
    fun t₁ _ hsub₁ clean₁ written₁ => ?_
  rw [created] at written₁
  refine write_meets rfl (fun answer => by cases answer <;> rfl) (g.later hsub₁) clean₁
    (by rw [written₁]; rfl) fun t₂ _ hsub₂ clean₂ written₂ => ?_
  rw [written₁] at written₂
  exact ⟨fun _ hx => hsub₂ (hsub₁ hx), clean₂, written₂⟩

theorem deployment_of_arguments {machine : KubemarkMachine} {args : List String}
    (hargs : Workload.arguments machine = .ok args) (image : String) (bundle : Workload.Bundle) :
    ∃ deployment, Workload.deployment image machine bundle = .ok deployment := by
  unfold Workload.deployment
  rw [hargs]
  exact ⟨_, rfl⟩

theorem Plan.sourced {text : String} {deps : Dependencies} {identity : Bootstrap.ClientIdentity}
    {deployment : Deployment} (resolved : Resolved ns name h deps)
    (issued : ⟨.bootstrap (.forNode ns name), .ok (.issued identity)⟩ ∈ h)
    (htext : text = (Kubeconfig.withCertificate deps.access Workload.identityCertPath).write)
    (hd : Workload.deployment settings.kubemarkImage deps.machine
      ⟨name, text, identity.stackedPem⟩ = .ok deployment) :
    Plan.Sourced settings ⟨deps.machine, deps.owner, ⟨name, text, identity.stackedPem⟩,
      deployment⟩ ns name h where
  machine := resolved.machine
  pending := resolved.pending
  owner := resolved.owner
  kubeconfig := by
    obtain ⟨clusterName, kubeconfig, hcluster, hsecret, haccess⟩ := resolved.kubeconfig
    exact ⟨clusterName, kubeconfig, deps.access, hcluster, hsecret, haccess, htext⟩
  issued := ⟨identity, issued, rfl⟩
  named := rfl
  deployment := hd

theorem provision_meets (settings : Settings) :
    (provision settings ns name).Meets (Attempts settings ns name) (Ends settings ns name) [] := by
  have early : Early [] := ⟨rfl, fun _ _ => List.not_mem_nil⟩
  refine (meets_toProgram _).2 (resolve_reads.bind_meets early fun t₁ deps _ early₁ resolved => ?_)
  refine (reads_orFail_mapError _ _).bind_meets early₁ fun t₂ args hsub₂ early₂ ⟨_, hargs⟩ => ?_
  refine (reads_ask rfl).bind_meets early₂ fun t₃ answer hsub₃ early₃ _ => ?_
  refine (reads_orFail answer).bind_meets early₃ fun t₄ _ hsub₄ early₄ _ => ?_
  refine (meets_bind _ _).2 (identityFor_meets early₄ fun t₅ identity hsub₅ none₅ issued => ?_)
  have hsub : t₁ ⊆ t₅ := fun _ hx => hsub₅ (hsub₄ (hsub₃ (hsub₂ hx)))
  obtain ⟨deployment, hdeployment⟩ := deployment_of_arguments hargs settings.kubemarkImage
    ⟨name, (Kubeconfig.withCertificate deps.access Workload.identityCertPath).write,
      identity.stackedPem⟩
  simp only [hdeployment]
  have g := Plan.sourced (resolved.later hsub) issued rfl hdeployment
  refine (create_meets g none₅).bind fun t₆ _ ⟨hsub₆, clean₆, written₆⟩ => ?_
  refine (report_meets (g.later hsub₆) clean₆ written₆).bind fun t₇ _ ⟨hsub₇, clean₇, written₇⟩ =>
    ?_
  refine (meets_bind _ _).2 ((meets_ask _).2 ⟨⟨clean₇, nofun⟩, fun _ => (meets_pure _).2 ?_⟩)
  have hreleased : t₅ ⊆ t₇ ++ [⟨.release (Csr.IdentityRequest.forNode ns name).key, ()⟩] :=
    fun _ hx => List.subset_append_left _ _ (hsub₇ (hsub₆ hx))
  exact .finished _ (g.later hreleased) (clean₇.append rfl) ((written_of_read rfl).trans written₇)

/-- The writes that were asked for, with the one that waits for its answer. -/
def attempted (h : List Exchange) : Program Result → List Query
  | .done _ => written h
  | .ask q _ => written h ++ [q].filter (·.isWrite)

def Planned (ns name : String) (h : List Exchange) (writes : List Query) : Prop :=
  writes = [] ∨ ∃ p : Plan, p.Grounded ns name h ∧ writes <+: p.writes ns name

theorem Planned.later {writes : List Query} (planned : Planned ns name h writes) (hsub : h ⊆ t) :
    Planned ns name t writes := by
  rcases planned with none | ⟨p, g, hfirst⟩
  · exact .inl none
  · exact .inr ⟨p, g.later hsub, hfirst⟩

theorem Attempts.attempted {q : Query} {next : q.Answer → Program Result}
    (attempts : Attempts settings ns name h q) (planned : Planned ns name h (written h)) :
    Planned ns name h (attempted h (.ask q next)) := by
  unfold Pass.attempted
  cases hwrite : q.isWrite with
  | false => simpa [hwrite] using planned
  | true =>
      obtain ⟨p, g, rest, hnext⟩ := attempts.planned hwrite
      exact .inr ⟨p, g.grounded, rest, by simp [hwrite, hnext]⟩

/-- What holds at any time of a pass for a node, which is known by what was asked and answered so
far and by what is left of its program. Where the management cluster shows machines under their own
names, the Deployment has the name of the node. -/
structure InOrder (ns name : String) (h : List Exchange) (p : Program Result) : Prop where
  planned : Planned ns name h (attempted h p)
  named : (∀ m, ⟨.kubemarkMachine ns name, .ok (some m)⟩ ∈ h → m.metadata.nameAny = name) →
    ∀ d, .createDeployment d ∈ attempted h p → d.metadata.ns = some "kube-system" ∧
      d.metadata.name = some name
  acknowledged : ∀ q next, p = .ask q next → Clean name h
  failed : ∀ l x r f, h = l ++ x :: r → x.failure? name = some f →
    r = [] ∧ p = .done (.error f) ∧ f.kind = x.query.failureKind
  provisioned : ∀ result, p = .done result → (result = .ok .provisioned ↔
    Clean name h ∧ ∃ plan : Plan, plan.Grounded ns name h ∧ written h = plan.writes ns name)
  unwritten : ∀ outcome, p = .done (.ok outcome) → outcome ≠ .provisioned → written h = []

variable {p : Program Result}

theorem planned_of_reaches (reached : (provision settings ns name).Reaches h p) :
    Planned ns name h (written h) ∧ Planned ns name h (attempted h p) := by
  have hwritten : Planned ns name h (written h) := by
    induction reached with
    | start => exact .inl rfl
    | @answer h q next before answer ih =>
        obtain ⟨⟨attempts, _⟩, _⟩ := (provision_meets settings).reaches before
        have hsame : attempted h (.ask q next) = written (h ++ [⟨q, answer⟩]) := by
          simp [attempted, written]
        rw [← hsame]
        exact (attempts.attempted ih).later (List.subset_append_left ..)
  refine ⟨hwritten, ?_⟩
  obtain ⟨m, _⟩ := (provision_meets settings).reaches reached
  cases p with
  | done result => exact hwritten
  | ask q next => exact m.1.attempted hwritten

theorem inOrder (reached : (provision settings ns name).Reaches h p) : InOrder ns name h p := by
  obtain ⟨m, earlier⟩ := (provision_meets settings).reaches reached
  have planned := (planned_of_reaches reached).2
  refine ⟨planned, ?_, ?_, ?_, ?_, ?_⟩
  · intro shown d hd
    rcases planned with none | ⟨plan, g, hfirst⟩
    · rw [none] at hd
      cases hd
    · have hmem := hfirst.subset hd
      simp only [Plan.writes, List.mem_cons, reduceCtorEq, Query.createDeployment.injEq,
        List.not_mem_nil, or_false, false_or] at hmem
      rw [hmem, g.deployment.2, shown plan.machine g.machine]
      exact ⟨g.deployment.1, rfl⟩
  · rintro q next rfl
    exact m.1.clean
  · intro l x r f hsplit hf
    have hx : x ∈ l ++ [x] := List.mem_append_right l List.mem_cons_self
    cases r with
    | cons y r =>
        have clean := (earlier (l ++ [x]) y r (by rw [hsplit, List.append_assoc]; rfl)).clean x hx
        rw [hf] at clean
        cases clean
    | nil =>
        subst hsplit
        refine ⟨rfl, ?_, Exchange.kind_of_failure? hf⟩
        cases p with
        | done result => rw [Ends.of_failure m hf]
        | ask q next =>
            rw [m.1.clean x hx] at hf
            cases hf
  · rintro result rfl
    exact Ends.provisioned_iff m
  · rintro outcome rfl early
    exact Ends.written_eq_nil m early

end HollowNode.Pass
