import HollowNode.Pass.Provision
import HollowNode.Proofs.Bootstrap.Alike
import HollowNode.Proofs.Pass.Exchange

namespace HollowNode.Pass

open Api Bootstrap

/-- What a pass learns and has to keep to itself: the kubeconfig of the workload cluster, the token
with which a node joins it, and the key of a client certificate. -/
inductive Secret
  | kubeconfig
  | token
  | keyPair
deriving DecidableEq

variable {secret : Secret}

/-- Two questions that differ at most in a secret that is meant for the one who is asked. -/
inductive Query.Alike (secret : Secret) : Query → Query → Prop
  | same (q : Query) : Alike secret q q
  | workload (hidden : secret = .kubeconfig) {text other : String}
      (same : ClusterAccess.ofText text = ClusterAccess.ofText other) (timeout : Nat) :
      Alike secret (.workload ⟨text, timeout⟩) (.workload ⟨other, timeout⟩)
  | csrClient (hidden : secret = .token) (access : ClusterAccess) (token other : String)
      (timeout : Nat) :
      Alike secret (.csrClient ⟨(Kubeconfig.withToken access token).write, timeout⟩)
        (.csrClient ⟨(Kubeconfig.withToken access other).write, timeout⟩)
  | createConfigMap (hidden : secret = .keyPair) (name kubeconfig : String) {certificate : String}
      (encoded : ∃ contents, certificate = Pem.encode ⟨ClientIdentity.certificateLabel, contents⟩)
      (key other : String) :
      Alike secret
        (.createConfigMap (Workload.Bundle.configMap ⟨name, kubeconfig, certificate ++ key⟩))
        (.createConfigMap (Workload.Bundle.configMap ⟨name, kubeconfig, certificate ++ other⟩))

/-- Two exchanges whose questions are alike and whose answers differ at most in a secret: in a
kubeconfig that leads to the same cluster, in a token, or in the key of an identity. -/
inductive Exchange.Alike (secret : Secret) : Exchange → Exchange → Prop
  | told {q r : Query} (asked : q.Alike secret r) {a : q.Answer} {b : r.Answer} (same : HEq a b) :
      Alike secret ⟨q, a⟩ ⟨r, b⟩
  | secretValue (hidden : secret = .kubeconfig) (ns name key : String) {text other : String}
      (same : ClusterAccess.ofText text = ClusterAccess.ofText other) :
      Alike secret ⟨.secretValue ns name key, .ok (some text)⟩
        ⟨.secretValue ns name key, .ok (some other)⟩
  | kubeadmConfig (hidden : secret = .token) (ns name : String) {config other : KubeadmConfig}
      {token changed : String} (first : config.bootstrapToken = some token)
      (second : other.bootstrapToken = some changed) :
      Alike secret ⟨.kubeadmConfig ns name, .ok (some config)⟩
        ⟨.kubeadmConfig ns name, .ok (some other)⟩
  | bootstrap (request : Csr.IdentityRequest) {a b : Bootstrap.Answer}
      (alike : a.Alike (secret = .keyPair) b) :
      Alike secret ⟨.bootstrap request, a⟩ ⟨.bootstrap request, b⟩

/-- Two programs that ask alike as long as they are told alike, and return what is related. -/
inductive Program.Alike (secret : Secret) {α β : Type} (related : α → β → Prop) :
    Program α → Program β → Prop
  | done {a : α} {b : β} (h : related a b) : Alike secret related (.done a) (.done b)
  | ask {q r : Query} (asked : q.Alike secret r) {next : q.Answer → Program α}
      {other : r.Answer → Program β} (goes : ∀ a b, Exchange.Alike secret ⟨q, a⟩ ⟨r, b⟩ →
      Alike secret related (next a) (other b)) :
      Alike secret related (.ask q next) (.ask r other)

theorem Program.Alike.bind {α β γ δ : Type} {related : α → β → Prop} {goal : γ → δ → Prop}
    {p : Program α} {q : Program β} (h : p.Alike secret related q) {f : α → Program γ}
    {g : β → Program δ} (next : ∀ a b, related a b → (f a).Alike secret goal (g b)) :
    (p.bind f).Alike secret goal (q.bind g) := by
  induction h with
  | done h => exact next _ _ h
  | ask asked _ ih => exact .ask asked ih

def Query.isPlain : Query → Bool
  | .secretValue .. | .kubeadmConfig .. | .bootstrap _ => false
  | _ => true

theorem Exchange.Alike.heq {q r : Query} (plain : q.isPlain = true) {a : q.Answer} {b : r.Answer}
    (h : Exchange.Alike secret ⟨q, a⟩ ⟨r, b⟩) : HEq a b := by
  cases h with
  | told asked same => exact same
  | secretValue | kubeadmConfig | bootstrap => cases plain

inductive Ended {α β : Type} (related : α → β → Prop) : Except Result α → Except Result β → Prop
  | ends (result : Result) : Ended related (.error result) (.error result)
  | goesOn {a : α} {b : β} (h : related a b) : Ended related (.ok a) (.ok b)

structure Dependencies.Alike (secret : Secret) (d e : Dependencies) : Prop where
  machine : e.machine = d.machine
  owner : e.owner = d.owner
  token : UpTo (secret = .token) (fun _ _ => True) d.token e.token
  kubeconfig : UpTo (secret = .kubeconfig)
    (fun a b => ClusterAccess.ofText a = ClusterAccess.ofText b) d.kubeconfig e.kubeconfig
  access : e.access = d.access

namespace Step

variable {α β γ δ : Type} {related : α → β → Prop} {goal : γ → δ → Prop}

def Alike (secret : Secret) (related : α → β → Prop) (s : Step α) (t : Step β) : Prop :=
  Program.Alike secret (Ended related) s.run t.run

theorem alike_pure {a : α} {b : β} (h : related a b) : Alike secret related (pure a) (pure b) :=
  .done (.goesOn h)

theorem alike_finish (outcome : Outcome) : Alike secret related (finish outcome) (finish outcome) :=
  .done (.ends _)

theorem alike_defer (reason : String) : Alike secret related (defer reason) (defer reason) :=
  .done (.ends _)

theorem alike_fail (f : Failure) : Alike secret related (fail f) (fail f) := .done (.ends _)

theorem Alike.bind {s : Step α} {t : Step β} (h : s.Alike secret related t) {f : α → Step γ}
    {g : β → Step δ} (next : ∀ a b, related a b → (f a).Alike secret goal (g b)) :
    (s >>= f).Alike secret goal (t >>= g) := by
  refine Program.Alike.bind h fun a b hab => ?_
  cases hab with
  | ends result => exact .done (.ends result)
  | goesOn h => exact next _ _ h

theorem alike_ask {q r : Query} (asked : q.Alike secret r) :
    Alike secret (fun a b => Exchange.Alike secret ⟨q, a⟩ ⟨r, b⟩) (liftM (ask q)) (liftM (ask r)) :=
  .ask asked fun _ _ told => .done (.goesOn told)

theorem alike_plain {q : Query} (plain : q.isPlain = true) {f : q.Answer → Step γ}
    {g : q.Answer → Step δ} (next : ∀ a, (f a).Alike secret goal (g a)) :
    Alike secret goal (liftM (ask q) >>= f) (liftM (ask q) >>= g) :=
  (alike_ask (.same q)).bind fun a _ told => eq_of_heq (told.heq plain) ▸ next a

theorem alike_orFail (e : Except Failure α) : Alike secret Eq (orFail e) (orFail e) := by
  cases e with
  | error f => exact alike_fail f
  | ok a => exact alike_pure rfl

theorem alike_orFail_bind (e : Except Failure α) {f : α → Step γ} {g : α → Step δ}
    (next : ∀ a, (f a).Alike secret goal (g a)) :
    Alike secret goal (orFail e >>= f) (orFail e >>= g) :=
  (alike_orFail e).bind fun a _ h => h ▸ next a

theorem orFail_ok_bind (a : α) (f : α → Step γ) : (orFail (.ok a) >>= f) = f a := rfl

theorem pendingMachine_alike (ns name : String) :
    (pendingMachine ns name).Alike secret Eq (pendingMachine ns name) := by
  unfold pendingMachine
  refine alike_plain rfl fun answer => alike_orFail_bind answer fun machine => ?_
  cases machine with
  | none => exact alike_plain rfl fun _ => alike_finish _
  | some machine =>
      cases hready : machine.isReady with
      | true => simp only [hready, if_true]; exact alike_finish _
      | false => simp only [hready]; exact alike_pure rfl

theorem ownerOf_alike (ns name : String) (machine : KubemarkMachine) :
    (ownerOf ns name machine).Alike secret Eq (ownerOf ns name machine) := by
  unfold ownerOf
  cases ownerName? machine with
  | none => exact alike_defer _
  | some ownerName =>
      refine alike_plain rfl fun answer => alike_orFail_bind answer fun owner => ?_
      rcases owner with _ | owner
      · exact alike_defer _
      dsimp only
      cases owner.clusterName with
      | none => exact alike_defer _
      | some clusterName =>
          refine alike_plain rfl fun answer => alike_orFail_bind answer fun cluster => ?_
          rcases cluster with _ | cluster
          · exact alike_defer _
          dsimp only
          cases cluster.infrastructureReady with
          | false => exact alike_defer _
          | true =>
              cases owner.spec.bootstrap.dataSecretName with
              | none => exact alike_defer _
              | some secretName => exact alike_pure rfl

theorem tokenOf_alike (ns ownerName : String) (owner : Machine) :
    (tokenOf ns ownerName owner).Alike secret (UpTo (secret = .token) fun _ _ => True)
      (tokenOf ns ownerName owner) := by
  unfold tokenOf
  cases owner.spec.bootstrap.configRef with
  | none => exact alike_defer _
  | some ref =>
      refine (alike_ask (.same _)).bind fun answer other told => ?_
      cases told with
      | kubeadmConfig hidden _ _ first second =>
          rw [orFail_ok_bind, orFail_ok_bind]
          dsimp only
          rw [first, second]
          exact alike_pure (.inr ⟨hidden, trivial⟩)
      | told _ same =>
          obtain rfl := eq_of_heq same
          refine alike_orFail_bind answer fun config => ?_
          rcases config with _ | config
          · exact alike_defer _
          dsimp only
          cases config.bootstrapToken with
          | none => exact alike_fail _
          | some token => exact alike_pure (.refl token)

theorem kubeconfigOf_alike (ns clusterName : String) :
    (kubeconfigOf ns clusterName).Alike secret
      (UpTo (secret = .kubeconfig) fun a b => ClusterAccess.ofText a = ClusterAccess.ofText b)
      (kubeconfigOf ns clusterName) := by
  unfold kubeconfigOf
  refine (alike_ask (.same _)).bind fun answer other told => ?_
  cases told with
  | secretValue hidden _ _ _ same => exact alike_pure (.inr ⟨hidden, same⟩)
  | told _ same =>
      obtain rfl := eq_of_heq same
      refine alike_orFail_bind answer fun kubeconfig => ?_
      rcases kubeconfig with _ | kubeconfig
      · exact alike_defer _
      · exact alike_pure (.refl kubeconfig)

theorem resolve_alike (ns name : String) :
    (resolve ns name).Alike secret (Dependencies.Alike secret) (resolve ns name) := by
  unfold resolve
  refine (pendingMachine_alike ns name).bind fun machine _ h => h ▸ ?_
  refine (ownerOf_alike ns name machine).bind fun r _ h => h ▸ ?_
  refine (tokenOf_alike ns _ r.1).bind fun token other htoken => ?_
  refine (kubeconfigOf_alike ns r.2).bind fun text changed htext => ?_
  have haccess : ClusterAccess.ofText changed = ClusterAccess.ofText text := by
    rcases htext with rfl | ⟨_, h⟩
    · rfl
    · exact h.symm
  rw [haccess]
  exact alike_orFail_bind _ fun access => alike_pure ⟨rfl, rfl, htoken, htext, rfl⟩

theorem identityFor_alike (request : Csr.IdentityRequest) :
    (identityFor request).Alike secret (SameIdentity (secret = .keyPair))
      (identityFor request) := by
  unfold identityFor
  refine alike_plain rfl fun started => ?_
  refine (alike_ask (.same _)).bind fun answer other told => ?_
  have alike : answer.Alike (secret = .keyPair) other := by
    cases told with
    | bootstrap _ alike => exact alike
    | told _ same => exact eq_of_heq same ▸ .refl answer
  refine alike_plain rfl fun ended => ?_
  cases alike with
  | issued same => exact alike_plain rfl fun _ => alike_pure same
  | pending retryAfter => exact alike_plain rfl fun _ => alike_finish _
  | error fault => exact alike_plain rfl fun _ => alike_fail _

theorem create_alike (settings : Settings) (name : String) {deps other : Dependencies}
    (hdeps : deps.Alike secret other) {bundle changed : Workload.Bundle}
    (asked : Query.Alike secret (.createConfigMap bundle.configMap)
      (.createConfigMap changed.configMap))
    (deployment : Deployment) :
    (create settings name deps bundle deployment).Alike secret Eq
      (create settings name other changed deployment) := by
  have connects : Query.Alike secret (.workload ⟨deps.kubeconfig, settings.remoteClientTimeout⟩)
      (.workload ⟨other.kubeconfig, settings.remoteClientTimeout⟩) := by
    rcases hdeps.kubeconfig with h | ⟨hidden, same⟩
    · rw [h]
      exact .same _
    · exact .workload hidden same _
  unfold create
  refine (alike_ask connects).bind fun answer _ told =>
    eq_of_heq (told.heq rfl) ▸ alike_orFail_bind answer fun _ => ?_
  refine (alike_ask asked).bind fun answer _ told =>
    eq_of_heq (told.heq rfl) ▸ alike_orFail_bind _ fun _ => ?_
  exact alike_plain rfl fun answer => alike_orFail_bind _ fun _ => alike_pure rfl

theorem report_alike (ns name : String) (owner : Machine) :
    (report ns name owner).Alike secret Eq (report ns name owner) := by
  unfold report
  refine alike_plain rfl fun answer => alike_orFail_bind _ fun _ => ?_
  exact alike_plain rfl fun answer => alike_orFail _

theorem deployment_eq (image : String) (machine : KubemarkMachine)
    (name text certificate other : String) :
    Workload.deployment image machine ⟨name, text, other⟩ = Workload.deployment image machine ⟨name,
      text, certificate⟩ :=
  rfl

theorem createConfigMap_alike {i j : ClientIdentity} (same : SameIdentity (secret = .keyPair) i j)
    (name text : String) :
    Query.Alike secret (.createConfigMap (Workload.Bundle.configMap ⟨name, text, i.stackedPem⟩))
      (.createConfigMap (Workload.Bundle.configMap ⟨name, text, j.stackedPem⟩)) := by
  rcases same with rfl | ⟨hidden, h⟩
  · exact .same _
  · rw [ClientIdentity.stackedPem, ClientIdentity.stackedPem, h.same]
    exact .createConfigMap hidden name text h.certificate i.privateKeyPem j.privateKeyPem

theorem csrClient_alike {token other : String}
    (same : UpTo (secret = .token) (fun _ _ => True) token other) (access : ClusterAccess)
    (timeout : Nat) :
    Query.Alike secret (.csrClient ⟨(Kubeconfig.withToken access token).write, timeout⟩)
      (.csrClient ⟨(Kubeconfig.withToken access other).write, timeout⟩) := by
  rcases same with rfl | ⟨hidden, -⟩
  · exact .same _
  · exact .csrClient hidden access token other timeout

theorem toProgram_alike {s t : Step Outcome} (h : s.Alike secret Eq t) :
    s.toProgram.Alike secret Eq t.toProgram := by
  refine Program.Alike.bind h fun a b hab => ?_
  cases hab with
  | ends result => exact .done rfl
  | goesOn h => exact h ▸ .done rfl

end Step

open Step

theorem provision_alike (secret : Secret) (settings : Settings) (ns name : String) :
    (provision settings ns name).Alike secret Eq (provision settings ns name) := by
  unfold provision
  refine toProgram_alike ((resolve_alike ns name).bind fun deps other hdeps => ?_)
  rw [hdeps.machine, hdeps.owner, hdeps.access]
  refine alike_orFail_bind _ fun _ => ?_
  refine (alike_ask (csrClient_alike hdeps.token deps.access settings.remoteClientTimeout)).bind
    fun answer _ told => ?_
  refine eq_of_heq (told.heq rfl) ▸ alike_orFail_bind answer fun _ => ?_
  refine (identityFor_alike _).bind fun identity changed same => ?_
  dsimp only
  rw [deployment_eq settings.kubemarkImage deps.machine name _ identity.stackedPem
    changed.stackedPem]
  refine alike_orFail_bind _ fun deployment => ?_
  refine (create_alike settings name hdeps (createConfigMap_alike same name _) deployment).bind
    fun _ _ _ => ?_
  exact (report_alike ns name deps.owner).bind fun _ _ _ => alike_plain rfl fun _ => alike_pure rfl

end HollowNode.Pass
