import HollowNode.Metrics
import HollowNode.Proofs.Pass.Reading

namespace HollowNode.Pass

open Api Step

variable {settings : Settings} {α β : Type} {ns name : String}
  {h t looked : List Exchange} {q : Query} {deps : Dependencies}
  {identity : Bootstrap.ClientIdentity} {result : Result}

def answerLabel : Bootstrap.Answer → String
  | .ok (.issued _) => "issued"
  | .ok (.pending _) => "pending"
  | .error _ => "failed"

def Query.isLate : Query → Bool
  | workload _ | createConfigMap _ | createDeployment _ | setProviderId .. | markReady ..
      | release _ => true
  | kubemarkMachine .. | machine .. | cluster .. | kubeadmConfig .. | secretValue .. | csrClient _
      | bootstrap _ | clock
  | observe .. => false

/-- A pass has looked up what it needs, and done nothing else. -/
structure Looked (ns name : String) (h : List Exchange) (deps : Dependencies) : Prop where
  resolved : Resolved ns name h deps
  lookups : ∀ x ∈ h, x.query.isLookup = true

def Dependencies.client (settings : Settings) (deps : Dependencies) : Connection :=
  ⟨(Kubeconfig.withToken deps.access deps.token).write, settings.remoteClientTimeout⟩

def Dependencies.bundle (deps : Dependencies) (name : String)
    (identity : Bootstrap.ClientIdentity) : Workload.Bundle :=
  ⟨name, (Kubeconfig.withCertificate deps.access Workload.identityCertPath).write,
    identity.stackedPem⟩

def bootstrapping (settings : Settings) (ns name : String) (deps : Dependencies) (started : Nat)
    (answer : Bootstrap.Answer) (ended : Nat) : List Exchange :=
  [⟨.csrClient (deps.client settings), .ok ()⟩, ⟨.clock, started⟩,
    ⟨.bootstrap (.forNode ns name), answer⟩, ⟨.clock, ended⟩,
    ⟨.observe (answerLabel answer) (ended - started), ()⟩]

/-- A pass got an identity, and then did what is to be done with it. -/
inductive Issued (settings : Settings) (ns name : String) (deps : Dependencies)
    (identity : Bootstrap.ClientIdentity) :
    List Exchange → Prop
  | intro {looked rest : List Exchange} (known : Looked ns name looked deps) (started ended : Nat)
      (late : ∀ x ∈ rest, x.query.isLate = true) : Issued settings ns name deps identity
        (looked ++ bootstrapping settings ns name deps started
          (.ok (.issued identity)) ended ++ rest)

/-- What a pass asks after some exchanges. -/
inductive Asked (settings : Settings) (ns name : String) : List Exchange → Query → Prop
  | lookup {h : List Exchange} {q : Query} (lookups : ∀ x ∈ h, x.query.isLookup = true)
      (lookup : q.isLookup = true) :
      Asked settings ns name h q
  | bootstraps {looked : List Exchange} {deps : Dependencies} (known : Looked ns name looked deps)
      (started : Nat) (answer : Bootstrap.Answer) (ended : Nat) (before : List Exchange) {q : Query}
      {a : q.Answer} {after : List Exchange}
      (next : bootstrapping settings ns name deps started answer ended =
        before ++ ⟨q, a⟩ :: after) :
      Asked settings ns name (looked ++ before) q
  | late {h : List Exchange} {q : Query} {deps : Dependencies} {identity : Bootstrap.ClientIdentity}
      (issued : Issued settings ns name deps identity h) (late : q.isLate = true)
      (configMap : ∀ m, q = .createConfigMap m → m = (deps.bundle name identity).configMap) :
        Asked settings ns name h q

/-- How a pass ends after some exchanges. -/
inductive Returned (settings : Settings) (ns name : String) : List Exchange → Result → Prop
  | declined {h : List Exchange} {result : Result} (lookups : ∀ x ∈ h, x.query.isLookup = true)
      (declined : Declined ns name h result) : Returned settings ns name h result
  | unserved {h : List Exchange} (lookups : ∀ x ∈ h, x.query.isLookup = true)
      (connection : Connection) (f : Failure) :
      Returned settings ns name (h ++ [⟨.csrClient connection, .error f⟩]) (.error f)
  | pending {looked : List Exchange} {deps : Dependencies} (known : Looked ns name looked deps)
      (started retryAfter ended : Nat) : Returned settings ns name
        (looked ++ bootstrapping settings ns name deps started (.ok (.pending retryAfter)) ended)
        (.ok (.bootstrapPending retryAfter))
  | refused {looked : List Exchange} {deps : Dependencies} (known : Looked ns name looked deps)
      (started : Nat) (fault : Bootstrap.Fault) (ended : Nat) : Returned settings ns name
        (looked ++ bootstrapping settings ns name deps started (.error fault) ended)
          (.error (.bootstrap fault))
  | broken {h : List Exchange} {deps : Dependencies} {identity : Bootstrap.ClientIdentity}
      (issued : Issued settings ns name deps identity h) (f : Failure) :
        Returned settings ns name h (.error f)
  | provisioned {h : List Exchange} {deps : Dependencies} {identity : Bootstrap.ClientIdentity}
      (issued : Issued settings ns name deps identity h) :
      Returned settings ns name (h ++ [⟨.release (Csr.objectKey ns name), ()⟩]) (.ok .provisioned)

theorem Issued.append {x : Exchange} (issued : Issued settings ns name deps identity h)
    (late : x.query.isLate = true) : Issued settings ns name deps identity (h ++ [x]) := by
  obtain ⟨known, started, ended, before⟩ := issued
  rw [List.append_assoc]
  refine .intro known started ended fun y hy => ?_
  rcases List.mem_append.1 hy with hy | hy
  · exact before y hy
  · rw [List.mem_singleton.1 hy]
    exact late

theorem Step.Looks.bind_course {G : List Exchange → α → Prop}
    {G' : List Exchange → β → Prop} {s : Step α} {f : α → Step β} (hs : s.Looks ns name G h)
    (lookups : ∀ x ∈ h, x.query.isLookup = true)
    (hf : ∀ t a, (∀ x ∈ t, x.query.isLookup = true) → G t a →
      (f a).Meets (Asked settings ns name) G' (Returned settings ns name) t) :
    (s >>= f).Meets (Asked settings ns name) G' (Returned settings ns name) h := by
  refine (meets_bind s f).2
    (hs.imp (P := fun t => ∀ x ∈ t, x.query.isLookup = true) ?_ ?_ ?_ ?_ lookups)
  · intro t x hlookup before y hy
    rcases List.mem_append.1 hy with hy | hy
    · exact before y hy
    · rw [List.mem_singleton.1 hy]
      exact hlookup
  · exact fun t q hlookup before => .lookup before hlookup
  · exact fun t a ha before => hf t a before ha
  · exact fun t result declined before => .declined before declined

theorem identityFor_course {G : List Exchange → Bootstrap.ClientIdentity → Prop}
    (known : Looked ns name looked deps)
    (goes : ∀ t identity, Issued settings ns name deps identity t → G t identity) :
    (identityFor (.forNode ns name)).Meets (Asked settings ns name) G (Returned settings ns name)
      (looked ++ [⟨.csrClient (deps.client settings), .ok ()⟩]) := by
  unfold identityFor
  simp only [meets_bind]
  -- Where a question stands in the course does not depend on what is answered later, so any later
  -- answers will do.
  refine (meets_ask .clock).2 ⟨.bootstraps known 0 (.ok (.pending 0)) 0 [_] rfl, fun started => ?_⟩
  rw [List.append_assoc]
  refine (meets_ask (.bootstrap _)).2 ⟨.bootstraps known started (.ok (.pending 0)) 0 [_, _] rfl,
    fun answer => ?_⟩
  rw [List.append_assoc]
  refine (meets_ask .clock).2 ⟨.bootstraps known started answer 0 [_, _, _] rfl, fun ended => ?_⟩
  rw [List.append_assoc]
  have observes : Asked settings ns name _ (.observe (answerLabel answer) (ended - started)) :=
    .bootstraps known started answer ended [_, _, _, _] rfl
  rcases answer with fault | identity | retryAfter
  · simp only [meets_bind, meets_fail]
    refine (meets_ask (.observe ..)).2 ⟨observes, fun _ => ?_⟩
    rw [List.append_assoc]
    exact .refused known started fault ended
  · simp only [meets_bind, meets_pure]
    refine (meets_ask (.observe ..)).2 ⟨observes, fun _ => ?_⟩
    rw [List.append_assoc]
    have issued : Issued settings ns name deps identity
        (looked ++ bootstrapping settings ns name deps started
          (.ok (.issued identity)) ended ++ []) :=
      .intro known started ended (by simp)
    rw [List.append_nil] at issued
    exact goes _ identity issued
  · simp only [meets_bind, meets_finish]
    refine (meets_ask (.observe ..)).2 ⟨observes, fun _ => ?_⟩
    rw [List.append_assoc]
    exact .pending known started retryAfter ended

theorem late_course {G : List Exchange → α → Prop}
    (issued : Issued settings ns name deps identity h) (late : q.isLate = true)
    (configMap : ∀ m, q = .createConfigMap m → m = (deps.bundle name identity).configMap)
    (read : q.Answer → Except Failure α)
    (goes : ∀ t a, Issued settings ns name deps identity t → G t a) :
    Step.Meets (Asked settings ns name)
      (fun t answer => (orFail (read answer)).Meets (Asked settings ns name) G
        (Returned settings ns name) t)
      (Returned settings ns name) (liftM (ask q)) h := by
  refine (meets_ask q).2 ⟨.late issued late configMap, fun answer => (meets_orFail _).2 ?_⟩
  have later : Issued settings ns name deps identity (h ++ [⟨q, answer⟩]) := issued.append late
  cases read answer with
  | error f => exact .broken later f
  | ok a => exact goes _ a later

theorem create_course (deployment : Deployment) (issued : Issued settings ns name deps identity h) :
    (create settings name deps (deps.bundle name identity) deployment).Meets
      (Asked settings ns name) (fun t _ => Issued settings ns name deps identity t)
      (Returned settings ns name) h := by
  unfold create
  simp only [meets_bind]
  refine late_course (q := .workload _) issued rfl (by simp) id fun t₁ _ issued₁ => ?_
  refine late_course (q := .createConfigMap _) issued₁ rfl (fun m hm => by cases hm; rfl) _
    fun t₂ _ issued₂ => ?_
  refine late_course (q := .createDeployment _) issued₂ rfl (by simp) _ fun t₃ _ issued₃ => ?_
  exact (meets_pure _).2 issued₃

theorem report_course (owner : Machine) (issued : Issued settings ns name deps identity h) :
    (report ns name owner).Meets (Asked settings ns name)
      (fun t _ => Issued settings ns name deps identity t) (Returned settings ns name) h := by
  unfold report
  simp only [meets_bind]
  refine late_course (q := .setProviderId ..) issued rfl (by simp) _ fun t₁ _ issued₁ => ?_
  exact late_course (q := .markReady ..) issued₁ rfl (by simp) _ fun t₂ _ issued₂ => issued₂

theorem provision_course (settings : Settings) (ns name : String) :
    (provision settings ns name).Meets (Asked settings ns name) (Returned settings ns name) [] := by
  have none : ∀ x ∈ ([] : List Exchange), x.query.isLookup = true := by simp
  refine (meets_toProgram _).2 (resolve_looks.bind_course none fun t₁ deps lookups₁ resolved => ?_)
  refine (looks_orFail_mapError _ _).bind_course lookups₁ fun t₂ _ lookups ⟨rfl, _⟩ => ?_
  have known : Looked ns name t₂ deps := ⟨resolved, lookups⟩
  have asks : Asked settings ns name (t₂ ++ []) (.csrClient (deps.client settings)) :=
    .bootstraps known 0 (.ok (.pending 0)) 0 [] rfl
  rw [List.append_nil] at asks
  refine (meets_bind _ _).2
    ((meets_ask _).2 ⟨asks, fun answer => (meets_bind _ _).2 ((meets_orFail _).2 ?_)⟩)
  rcases answer with f | _
  · exact .unserved lookups _ f
  refine (meets_bind _ _).2 (identityFor_course known fun t₃ identity issued => ?_)
  refine (meets_bind _ _).2 ((meets_orFail _).2 ?_)
  generalize Except.mapError Failure.flag (Workload.deployment _ _ _) = made
  rcases made with f | deployment
  · exact .broken issued f
  refine (create_course deployment issued).bind fun t₄ _ issued₄ => ?_
  refine (report_course deps.owner issued₄).bind fun t₅ _ issued₅ => ?_
  have releases : Asked settings ns name t₅ (.release (Csr.objectKey ns name)) :=
    .late issued₅ rfl (by simp)
  exact (meets_bind _ _).2 ((meets_ask (.release _)).2 ⟨releases, fun _ => .provisioned issued₅⟩)

theorem reaches_asks (reached : (provision settings ns name).Reaches h (.ask q next)) :
    Asked settings ns name h q :=
  ((provision_course settings ns name).reaches reached).1.1

theorem reaches_returns (reached : (provision settings ns name).Reaches h (.done result)) :
    Returned settings ns name h result := ((provision_course settings ns name).reaches reached).1

theorem Returned.released (returned : Returned settings ns name h result)
    (final : result = .ok .absent ∨ result = .ok .provisioned) :
    ∃ t, h = t ++ [⟨.release (Csr.objectKey ns name), ()⟩] := by
  cases returned with
  | declined lookups declined =>
      cases declined with
      | absent t => exact ⟨t, rfl⟩
      | ready | deferred | failed => simp at final
  | unserved | pending | refused | broken => simp at final
  | provisioned issued => exact ⟨_, rfl⟩

def Result.label : Result → String
  | .ok outcome => outcome.label
  | .error _ => Metrics.errorLabel

def Query.observes (label : String) : Query → Bool
  | observe result _ => result = label
  | _ => false

def calls (h : List Exchange) : Nat := h.countP (·.query.isBootstrap)

def observations (label : String) (h : List Exchange) : Nat := h.countP (·.query.observes label)

def Exchange.client? : Exchange → Option Connection
  | ⟨.csrClient connection, .ok _⟩ => some connection
  | _ => none

def clients (h : List Exchange) : List Connection := h.filterMap (·.client?)

def Query.isOwn : Query → Bool
  | csrClient _ | bootstrap _ | clock | observe .. => true
  | _ => false

theorem Query.isOwn_of_isLookup (hq : q.isLookup = true) : q.isOwn = false := by
  cases q with
  | csrClient | bootstrap | clock | observe => cases hq
  | _ => rfl

theorem Query.isOwn_of_isLate (hq : q.isLate = true) : q.isOwn = false := by
  cases q with
  | csrClient | bootstrap | clock | observe => cases hq
  | _ => rfl

theorem calls_eq_zero (other : ∀ x ∈ h, x.query.isOwn = false) : calls h = 0 := by
  refine List.countP_eq_zero.2 fun x hx his => ?_
  have hown := other x hx
  cases hq : x.query with
  | bootstrap => simp [hq, Query.isOwn] at hown
  | _ => simp [hq, Query.isBootstrap] at his

theorem observations_eq_zero (label : String) (other : ∀ x ∈ h, x.query.isOwn = false) :
    observations label h = 0 := by
  refine List.countP_eq_zero.2 fun x hx his => ?_
  have hown := other x hx
  cases hq : x.query with
  | observe => simp [hq, Query.isOwn] at hown
  | _ => simp [hq, Query.observes] at his

theorem clients_eq_nil (other : ∀ x ∈ h, x.query.isOwn = false) : clients h = [] := by
  refine List.filterMap_eq_nil_iff.2 fun x hx => ?_
  have hown := other x hx
  obtain ⟨q, answer⟩ := x
  cases q with
  | csrClient => cases hown
  | _ => rfl

theorem calls_append (h t : List Exchange) : calls (h ++ t) = calls h + calls t :=
  List.countP_append

theorem observations_append (label : String) (h t : List Exchange) :
    observations label (h ++ t) = observations label h + observations label t := List.countP_append

theorem clients_append (h t : List Exchange) : clients (h ++ t) = clients h ++ clients t :=
  List.filterMap_append

theorem observations_bootstrapping (label : String) (started : Nat) (answer : Bootstrap.Answer)
    (ended : Nat) :
    observations label (bootstrapping settings ns name deps started answer ended) =
      if answerLabel answer = label then 1 else 0 := by
  simp [observations, bootstrapping, Query.observes, List.countP_cons]

/-- How the observations of a pass and its calls for a certificate go with the way it ends. -/
structure Observed (h : List Exchange) (result : Result) : Prop where
  once : calls h ≤ 1
  answered : observations "issued" h + observations "pending" h + observations "failed" h = calls h
  pending : observations "pending" h = if result.label = "bootstrap_pending" then 1 else 0
  issued : result.label = "provisioned" → observations "issued" h = 1

theorem Observed.of_uncalled (uncalled : calls h = 0) (silent : ∀ label, observations label h = 0)
    (unpending : result.label ≠ "bootstrap_pending")
    (unprovisioned : result.label ≠ "provisioned") : Observed h result where
  once := by simp [uncalled]
  answered := by simp [uncalled, silent]
  pending := by rw [silent, if_neg unpending]
  issued done := absurd done unprovisioned

theorem Observed.of_bootstrapping {rest : List Exchange} {answer : Bootstrap.Answer}
    (known : Looked ns name looked deps) (started ended : Nat)
    (late : ∀ x ∈ rest, x.query.isLate = true)
    (pending : answerLabel answer = "pending" ↔ result.label = "bootstrap_pending")
    (issued : result.label = "provisioned" → answerLabel answer = "issued") :
    Observed
      (looked ++ bootstrapping settings ns name deps started answer ended ++ rest) result := by
  have before : ∀ x ∈ looked, x.query.isOwn = false :=
    fun x hx => Query.isOwn_of_isLookup (known.lookups x hx)
  have after : ∀ x ∈ rest, x.query.isOwn = false := fun x hx => Query.isOwn_of_isLate (late x hx)
  have hcalls :
      calls (looked ++ bootstrapping settings ns name deps started answer ended ++ rest) = 1 := by
    rw [calls_append, calls_append, calls_eq_zero before, calls_eq_zero after]
    rfl
  have hobs (label : String) :
      observations label (looked ++ bootstrapping settings ns name deps started answer ended ++
        rest) = if answerLabel answer = label then 1 else 0 := by
    rw [observations_append, observations_append, observations_eq_zero _ before,
      observations_eq_zero _ after, observations_bootstrapping, Nat.zero_add, Nat.add_zero]
  refine ⟨Nat.le_of_eq hcalls, ?_, ?_, ?_⟩
  · rw [hcalls, hobs, hobs, hobs]
    rcases answer with fault | identity | retryAfter <;> rfl
  · rw [hobs]
    simp only [pending]
  · intro done
    rw [hobs, if_pos (issued done)]

theorem Issued.observed (issued : Issued settings ns name deps identity h)
    (unpending : result.label ≠ "bootstrap_pending") : Observed h result := by
  obtain ⟨known, started, ended, late⟩ := issued
  refine .of_bootstrapping known started ended late (iff_of_false ?_ unpending) fun _ => rfl
  simp [answerLabel]

theorem Returned.observed (returned : Returned settings ns name h result) : Observed h result := by
  cases returned with
  | declined lookups declined =>
      have other : ∀ x ∈ h, x.query.isOwn = false :=
        fun x hx => Query.isOwn_of_isLookup (lookups x hx)
      cases declined with
      | absent | ready | deferred | failed =>
          exact .of_uncalled (calls_eq_zero other) (observations_eq_zero · other)
            (by simp [Result.label, Outcome.label, Metrics.errorLabel])
            (by simp [Result.label, Outcome.label, Metrics.errorLabel])
  | unserved lookups connection f =>
      have other := fun x hx => Query.isOwn_of_isLookup (lookups x hx)
      refine .of_uncalled ?_ (fun label => ?_) (by simp [Result.label, Metrics.errorLabel])
        (by simp [Result.label, Metrics.errorLabel])
      · rw [calls_append, calls_eq_zero other]
        rfl
      · rw [observations_append, observations_eq_zero label other]
        rfl
  | pending known started retryAfter ended =>
      simpa using Observed.of_bootstrapping known started ended (List.forall_mem_nil _)
        (iff_of_true rfl rfl) (by simp [Result.label, Outcome.label])
  | refused known started fault ended =>
      simpa using Observed.of_bootstrapping known started ended (List.forall_mem_nil _)
        (by simp [Result.label, answerLabel, Metrics.errorLabel])
          (by simp [Result.label, Metrics.errorLabel])
  | broken issued f => exact issued.observed (by simp [Result.label, Metrics.errorLabel])
  | provisioned issued => exact (issued.append rfl).observed (by simp [Result.label, Outcome.label])

theorem clients_of_lookups (lookups : ∀ x ∈ h, x.query.isLookup = true) : clients h = [] :=
  clients_eq_nil fun x hx => Query.isOwn_of_isLookup (lookups x hx)

/-- A pass got its one client, for the cluster that it had looked up. -/
structure Served (settings : Settings) (ns name : String) (h : List Exchange)
    (deps : Dependencies) : Prop where
  known : ∃ looked, looked <+: h ∧ Looked ns name looked deps
  client : clients h = [deps.client settings]

theorem Served.resolved (served : Served settings ns name h deps) : Resolved ns name h deps := by
  obtain ⟨looked, before, known⟩ := served.known
  exact known.resolved.later before.subset

theorem Served.of_prefix (served : Served settings ns name h deps) (before : t <+: h)
    (has : clients t ≠ []) : Served settings ns name t deps := by
  obtain ⟨looked, hlooked, known⟩ := served.known
  refine ⟨⟨looked, ?_, known⟩, ?_⟩
  · rcases List.prefix_or_prefix_of_prefix hlooked before with first | short
    · exact first
    · exact absurd (clients_of_lookups fun x hx => known.lookups x (short.subset hx)) has
  · obtain ⟨rest, rfl⟩ := before
    have hclient := served.client
    rw [clients_append] at hclient
    obtain ⟨client, others, hclients⟩ := List.exists_cons_of_ne_nil has
    rw [hclients] at hclient ⊢
    obtain ⟨hhead, htail⟩ := List.cons.inj hclient
    rw [hhead, (List.append_eq_nil_iff.1 htail).1]

theorem Asked.served_of_bootstrap {request : Csr.IdentityRequest}
    (asked : Asked settings ns name h (.bootstrap request)) :
    request = .forNode ns name ∧ ∃ deps, Served settings ns name h deps := by
  cases asked with
  | lookup _ lookup => cases lookup
  | late _ late => cases late
  | @bootstraps looked deps known started answer ended before q a after next =>
      rcases before with _ | ⟨x, _ | ⟨y, _ | ⟨z, _ | ⟨w, _ | ⟨v, before⟩⟩⟩⟩⟩ <;>
        simp [bootstrapping] at next
      obtain ⟨rfl, rfl, ⟨rfl, _⟩, _⟩ := next
      refine ⟨rfl, deps, ⟨looked, List.prefix_append .., known⟩, ?_⟩
      rw [clients_append, clients_of_lookups known.lookups]
      rfl

theorem Asked.served_of_createConfigMap {m : ConfigMap}
    (asked : Asked settings ns name h (.createConfigMap m)) :
    ∃ deps identity, Served settings ns name h deps ∧
      ⟨.bootstrap (.forNode ns name), .ok (.issued identity)⟩ ∈ h ∧
      m = (deps.bundle name identity).configMap := by
  cases asked with
  | lookup _ lookup => cases lookup
  | @bootstraps looked deps known started answer ended before q a after next =>
      rcases before with _ | ⟨x, _ | ⟨y, _ | ⟨z, _ | ⟨w, _ | ⟨v, before⟩⟩⟩⟩⟩ <;>
        simp [bootstrapping] at next
  | @late h q deps identity issued late configMap =>
      obtain @⟨looked, rest, known, started, ended, late⟩ := issued
      refine ⟨deps, identity, ⟨⟨looked, ?_, known⟩, ?_⟩, by simp [bootstrapping], configMap m rfl⟩
      · rw [List.append_assoc]
        exact List.prefix_append ..
      · rw [clients_append, clients_append, clients_of_lookups known.lookups,
          clients_eq_nil fun x hx => Query.isOwn_of_isLate (late x hx)]
        rfl

end HollowNode.Pass
