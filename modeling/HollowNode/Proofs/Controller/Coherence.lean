import HollowNode.Proofs.Controller.Bundles
import HollowNode.Proofs.Controller.Leftovers

namespace HollowNode.Controller

open Pass
open Bootstrap (ClientIdentity)

section

variable {settings : Settings} {keys : Nat → Key.Pair} {c c' base : Controller}
  {f : Flight} {e : Event} {fs pre : List Effect} {request : Csr.IdentityRequest}
  {answer : Bootstrap.Answer} {id : Nat}

theorem Hears.answered (hears : Hears settings keys c f e ⟨.bootstrap request, answer⟩ base pre) :
    ∃ call, f.call = some call ∧ .bootstrap (.answer call answer) ∈ pre := by
  cases hears with
  | told _ _ _ plain => cases plain
  | @called _ _ call _ _ _ found => exact ⟨call, by simpa using List.find?_some found, .head _⟩

theorem Act.answered (act : Act settings keys c e (some (id, ⟨.bootstrap request, answer⟩)) c' fs) :
    ∃ f ∈ c.flights, ∃ call, f.call = some call ∧
      (∃ next, f.program = .ask (.bootstrap request) next) ∧
      .bootstrap (.answer call answer) ∈ fs := by
  cases act with
  | goesOn asks hears =>
      obtain ⟨call, hcall, hanswer⟩ := hears.answered
      exact ⟨_, hears.mem, call, hcall, ⟨_, asks⟩, hanswer⟩
  | ends asks hears =>
      obtain ⟨call, hcall, hanswer⟩ := hears.answered
      exact ⟨_, hears.mem, call, hcall, ⟨_, asks⟩, List.mem_append_left _ hanswer⟩

end

namespace History

variable {settings : Settings} {keys : Nat → Key.Pair} {now n k id : Nat} {f : Flight}
  {x : Exchange} {text : String} {access : ClusterAccess} {deps : Dependencies}

def Leads (r : History settings keys { now }) (n id : Nat) (text : String)
    (access : ClusterAccess) : Prop :=
  (∃ ns secret, ⟨.secretValue ns secret kubeconfigSecretKey, .ok (some text)⟩ ∈ r.log id n) ∧
    ClusterAccess.ofText text = .ok access

/-- A pass waits for a call, whose requests go through the one client that the pass has. -/
structure Serves (r : History settings keys { now }) (n call : Nat) (f : Flight) (text : String)
    (access : ClusterAccess) (token : String) : Prop where
  mem : f ∈ (r.state n).flights
  waits : f.call = some call
  leads : r.Leads n f.id text access
  client : clients (r.log f.id n) =
    [⟨(Kubeconfig.withToken access token).write, settings.remoteClientTimeout⟩]

theorem mem_log (r : History settings keys { now }) (h : x ∈ r.log id n) :
    ∃ k < n, r.heard? k = some (id, x) := by
  induction n with
  | zero => cases h
  | succ n ih =>
      rcases List.mem_append.1 h with h | h
      · obtain ⟨k, hk, heard⟩ := ih h
        exact ⟨k, Nat.lt_succ_of_lt hk, heard⟩
      · obtain ⟨⟨flight, y⟩, hy, rfl⟩ := List.mem_map.1 h
        obtain ⟨heard, own⟩ := Option.filter_eq_some_iff.1 (Option.mem_toList.1 hy)
        obtain rfl : flight = id := of_decide_eq_true own
        exact ⟨n, Nat.lt_succ_self n, heard⟩

theorem leads_of_served {r : History settings keys { now }} {ns name : String}
    (served : Served settings ns name (r.log id n) deps) :
    ∃ text, r.Leads n id text deps.access := by
  obtain ⟨clusterName, text, -, hsecret, haccess⟩ := served.resolved.kubeconfig
  exact ⟨text, ⟨ns, _, hsecret⟩, haccess⟩

theorem serves_of_served {r : History settings keys { now }} {call : Nat}
    (hf : f ∈ (r.state n).flights) (waits : f.call = some call)
    (served : Served settings f.ns f.name (r.log f.id n) deps) :
    ∃ text, r.Serves n call f text deps.access deps.token := by
  obtain ⟨text, leads⟩ := leads_of_served served
  exact ⟨text, hf, waits, leads, served.client⟩

theorem kubeconfig_configMap (b : Workload.Bundle) :
    b.configMap.data.bind (·.get? Workload.kubeconfigKey) = some b.kubeconfig := by
  simp [Workload.Bundle.configMap, Dict.ofList, Dict.get?_insert, Workload.kubeconfigKey,
    Workload.certKey]

theorem serves_of_mem {r : History settings keys { now }} (passing : r.Passing)
    {call : Bootstrap.Call} (hcall : call ∈ (r.state n).bootstraps.calls) :
    ∃ f ∈ (r.state n).flights, f.call = some call.id ∧
      call.request = .forNode f.ns f.name ∧
      ∃ deps, Served settings f.ns f.name (r.log f.id n) deps := by
  obtain ⟨f, hf, waits⟩ := (manned passing n).manned call hcall
  obtain ⟨call', hcall', hid, next, asks⟩ := (manned passing n).waits f hf call.id waits
  obtain rfl : call' = call := (r.sessions.orderly n).eq_of_id hcall' hcall hid
  exact ⟨f, hf, waits, (reaches_asks (asks ▸ r.reached n f hf)).served_of_bootstrap⟩

theorem submitted_of_issued {r : History settings keys { now }} (passing : r.Passing)
    {ns name : String} {identity : ClientIdentity}
    (issued : ⟨.bootstrap (.forNode ns name), .ok (.issued identity)⟩ ∈ r.log id n) :
    ∃ l < n, ∃ session csr poller certificate, ∃ p : r.sessions.Polled l session csr poller,
      r.sessions.event l = .polled poller (.ok (some certificate)) ∧
      ClientIdentity.ofPem (r.sessions.state l).now certificate p.pair.privatePem = .ok identity ∧
      p.caller.request.key = Csr.objectKey ns name := by
  obtain ⟨k, hkn, heard⟩ := r.mem_log issued
  obtain ⟨g, hg, call, waits, ⟨next, asks⟩, answered⟩ := (heard ▸ r.act k).answered
  obtain ⟨c, hc, rfl, l, hlk, csr, poller, certificate, p, polled, usable, -⟩ :=
    Bootstrap.History.handed (mem_effects_sessions answered)
  refine ⟨l, Nat.lt_of_le_of_lt hlk hkn, c.session, csr, poller, certificate, p, polled, usable, ?_⟩
  obtain ⟨d, hd, hdc, next', asks'⟩ := (manned passing k).waits g hg c.id waits
  obtain rfl : d = c := (r.sessions.orderly k).eq_of_id hd hc hdc
  have hrequest : d.request = .forNode ns name := by
    rw [asks] at asks'
    injection asks' with hquery
    injection hquery with hrequest
    exact hrequest.symm
  have belongs := (r.sessions.orderly p.submitted).calls p.caller p.mem
  rw [p.own] at belongs
  have later := r.sessions.belongs (Nat.le_trans (Nat.le_of_lt p.before) hlk) belongs
  rw [← later.calls d hc rfl, hrequest]
  rfl

/-- Whatever passes run side by side and whatever they read, a pass puts into its ConfigMap the way
to the cluster that it has looked up, and a certificate that was issued for a request of a pass for
the same machine. The client of that pass led to the cluster in the ConfigMap if it had read the
same kubeconfig, or is the same pass. -/
theorem bundle_coherence (r : History settings keys { now }) (passing : r.Passing)
    (hf : f ∈ (r.state n).flights) {m : Api.ConfigMap}
    {next : Except Failure Creation → Program Result}
    (asks : f.program = .ask (.createConfigMap m) next) :
    ∃ text access identity, r.Leads n f.id text access ∧
      m.data.bind (·.get? Workload.kubeconfigKey) =
        some (Kubeconfig.withCertificate access Workload.identityCertPath).write ∧
      m.data.bind (·.get? Workload.certKey) = some identity.stackedPem ∧
      ∃ l < n, ∃ session csr poller certificate, ∃ p : r.sessions.Polled l session csr poller,
        r.sessions.event l = .polled poller (.ok (some certificate)) ∧
        ClientIdentity.ofPem (r.sessions.state l).now certificate p.pair.privatePem = .ok identity ∧
        ∃ g text' access' token, r.Serves p.submitted p.caller.id g text' access' token ∧
          Csr.objectKey g.ns g.name = Csr.objectKey f.ns f.name ∧
          (text' = text ∨ g.id = f.id → (Kubeconfig.withToken access' token).currentCluster =
            (Kubeconfig.withCertificate access Workload.identityCertPath).currentCluster) := by
  obtain ⟨deps, identity, served, issued, rfl⟩ :=
    (reaches_asks (asks ▸ r.reached n f hf)).served_of_createConfigMap
  obtain ⟨text, leads⟩ := leads_of_served served
  obtain ⟨l, hl, session, csr, poller, certificate, p, polled, usable, hkey⟩ :=
    submitted_of_issued passing issued
  have hsubmitted : p.submitted < n := Nat.lt_trans p.before hl
  obtain ⟨g, hg, waits, hrequest, deps', served'⟩ := serves_of_mem passing p.mem
  have hkeys : Csr.objectKey g.ns g.name = Csr.objectKey f.ns f.name := by
    rw [hrequest] at hkey
    exact hkey
  refine ⟨text, deps.access, identity, leads, kubeconfig_configMap _, certPem_configMap _, l, hl,
    session, csr, poller, certificate, p, polled, usable, g, ?_⟩
  by_cases same : g.id = f.id
  · -- The pass itself submitted the request, through the only client that it ever got.
    have before : r.log g.id p.submitted <+: r.log f.id n :=
      same ▸ r.log_prefix g.id (Nat.le_of_lt hsubmitted)
    have earlier := served.of_prefix before (by simp [served'.client])
    obtain ⟨text', leads'⟩ := leads_of_served earlier
    exact ⟨text', deps.access, deps.token, ⟨hg, waits, leads', earlier.client⟩, hkeys, fun _ => rfl⟩
  · obtain ⟨text', serves⟩ := serves_of_served hg waits served'
    refine ⟨text', deps'.access, deps'.token, serves, hkeys, ?_⟩
    rintro (rfl | itself)
    · rw [Except.ok.inj (serves.leads.2.symm.trans leads.2)]
      rfl
    · exact absurd itself same

theorem serves_of_submit {r : History settings keys { now }} (passing : r.Passing) {call : Nat}
    {request : Csr.SigningRequest} (submits : .submit call request ∈ r.sessions.effects n) :
    ∃ f text access token, r.Serves n call f text access token := by
  obtain ⟨c, hc, -, rfl, -⟩ := (r.sessions.step n).of_submit submits
  obtain ⟨f, hf, waits, -, deps, served⟩ := serves_of_mem passing hc
  obtain ⟨text, serves⟩ := serves_of_served hf waits served
  exact ⟨f, text, deps.access, deps.token, serves⟩

theorem only_submission {r : History settings keys { now }} {i j call : Nat}
    {request : Csr.SigningRequest} (first : (r.state i).bootstraps.generated = 0)
    (next : (r.state (i + 1)).bootstraps.generated = 1)
    (last : (r.state j).bootstraps.generated = 1) (hkj : k < j)
    (submits : .submit call request ∈ r.sessions.effects k) : k = i := by
  have more : (r.state k).bootstraps.generated < (r.state (k + 1)).bootstraps.generated :=
    (r.sessions.step k).generated_lt submits
  have till : (r.state (k + 1)).bootstraps.generated ≤ (r.state j).bootstraps.generated :=
    r.sessions.generated_mono hkj
  refine r.eq_of_lt (f := (·.bootstraps.generated))
    (fun n => r.sessions.generated_mono (Nat.le_succ n)) more ?_ ?_ <;> omega

def leadsTo (server : String) (h : List Exchange) : Bool := h.all fun
  | ⟨.secretValue .., .ok (some text)⟩ => (ClusterAccess.ofText text).toOption.all (·.host = server)
  | _ => true

theorem host_of_leadsTo {r : History settings keys { now }} {server : String}
    (leads : r.Leads n id text access) (there : leadsTo server (r.log id n) = true) :
    access.host = server := by
  obtain ⟨⟨ns, secret, hread⟩, haccess⟩ := leads
  have hhost : (ClusterAccess.ofText text).toOption.all (·.host = server) = true :=
    List.all_eq_true.1 there _ hread
  rw [haccess] at hhost
  exact of_decide_eq_true hhost

theorem relocation_servers :
    ((relocation.state 9).bootstraps.generated = 0 ∧
      (relocation.state (9 + 1)).bootstraps.generated = 1 ∧
      (relocation.state 29).bootstraps.generated = 1) ∧
      ((relocation.state 9).flights.all fun f => f.id = 0 && leadsTo "b" (relocation.log f.id 9)) =
        true ∧
      ((relocation.state 15).flights.any fun f => f.id = 0 &&
        match f.program with
        | .ask (.createConfigMap _) _ => true
        | _ => false) = true ∧
      ((relocation.state 29).flights.any fun f => leadsTo "c" (relocation.log f.id 29) &&
        match f.program with
        | .ask (.createConfigMap _) _ => true
        | _ => false) = true := by decide +kernel

theorem relocation_submits {call : Nat} {request : Csr.SigningRequest} (hk : k < 29)
    (submits : .submit call request ∈ relocation.sessions.effects k) : k = 9 :=
  only_submission relocation_servers.1.1 relocation_servers.1.2.1
    relocation_servers.1.2.2 hk submits

theorem relocation_split : relocation.Passing ∧
    ∃ f ∈ (relocation.state 29).flights, ∃ m next text access, f.program =
      .ask (.createConfigMap m) next ∧ relocation.Leads 29 f.id text access ∧ access.host = "c" ∧
      m.data.bind (·.get? Workload.kubeconfigKey) =
        some (Kubeconfig.withCertificate access Workload.identityCertPath).write ∧
      ∀ k < 29, ∀ call request, .submit call request ∈ relocation.sessions.effects k →
        ∃ g text access token, relocation.Serves k call g text access token ∧
          access.host = "b" := by
  obtain ⟨-, first, -, second⟩ := relocation_servers
  obtain ⟨f, hf, second⟩ := List.any_eq_true.1 second
  obtain ⟨there, asks⟩ := Bool.and_eq_true_iff.1 second
  split at asks
  next m next hp =>
    obtain ⟨deps, identity, served, -, rfl⟩ :=
      (reaches_asks (hp ▸ relocation.reached 29 f hf)).served_of_createConfigMap
    obtain ⟨text, leads⟩ := leads_of_served served
    refine ⟨relocation_passing, f, hf, _, next, text, deps.access, hp, leads,
      host_of_leadsTo leads there, kubeconfig_configMap _, fun k hk call request submits => ?_⟩
    obtain rfl := relocation_submits hk submits
    obtain ⟨g, text', access', token, serves⟩ := serves_of_submit relocation_passing submits
    have back := (Bool.and_eq_true_iff.1 (List.all_eq_true.1 first g serves.mem)).2
    exact ⟨g, text', access', token, serves, host_of_leadsTo serves.leads back⟩
  next => cases asks

theorem relocation_coherent :
    ∃ f ∈ (relocation.state 15).flights, ∃ m next access access' token call, f.program =
    .ask (.createConfigMap m) next ∧ m.data.bind (·.get? Workload.kubeconfigKey) =
      some (Kubeconfig.withCertificate access Workload.identityCertPath).write ∧
    (∃ k < 15, ∃ g text, relocation.Serves k call g text access' token) ∧
    (Kubeconfig.withToken access' token).currentCluster =
      (Kubeconfig.withCertificate access Workload.identityCertPath).currentCluster := by
  obtain ⟨-, first, own, -⟩ := relocation_servers
  obtain ⟨f, hf, own⟩ := List.any_eq_true.1 own
  obtain ⟨hid, asks⟩ := Bool.and_eq_true_iff.1 own
  split at asks
  next m next hp =>
    obtain ⟨text, access, identity, -, hkubeconfig, -, l, hl, session, csr, poller, certificate, p,
      -, -, g, text', access', token, serves, -, same⟩ :=
      bundle_coherence relocation relocation_passing hf hp
    have before : p.submitted < 15 := Nat.lt_trans p.before hl
    have hsubmitted : p.submitted = 9 :=
      relocation_submits (Nat.lt_trans before (by decide)) p.submits
    have itself : g.id = f.id := by
      have hg := serves.mem
      rw [hsubmitted] at hg
      have hzero := (Bool.and_eq_true_iff.1 (List.all_eq_true.1 first g hg)).1
      rw [of_decide_eq_true hzero, of_decide_eq_true hid]
    exact ⟨f, hf, m, next, access, access', token, p.caller.id, hp, hkubeconfig,
      ⟨p.submitted, before, g, text', serves⟩, same (.inr itself)⟩
  next => cases asks

end History

end HollowNode.Controller
