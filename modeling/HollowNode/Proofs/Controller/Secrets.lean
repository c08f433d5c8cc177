import HollowNode.Proofs.Bootstrap.Seen
import HollowNode.Proofs.Controller.Bundles
import HollowNode.Proofs.Except
import HollowNode.Proofs.Pass.Secrets

namespace HollowNode

open Pass

variable {secret : Secret} {settings : Settings} {keys keys' : Nat → Key.Pair} {c d : Controller}
  {f g : Flight}

structure Flight.Alike (secret : Secret) (f g : Flight) : Prop where
  same : g = { f with program := g.program }
  program : f.program.Alike secret Eq g.program

namespace Flight.Alike

theorem id_eq (h : f.Alike secret g) : g.id = f.id := by rw [h.same]

theorem call_eq (h : f.Alike secret g) : g.call = f.call := by rw [h.same]

theorem goesOn (h : f.Alike secret g) (call : Option Nat) {p q : Program Result}
    (program : p.Alike secret Eq q) :
    Flight.Alike secret { f with program := p, call } { g with program := q, call } where
  same := by rw [h.same]
  program := program

theorem asks (h : f.Alike secret g) {q : Query} {next : q.Answer → Program Result}
    (asked : f.program = .ask q next) : ∃ r next', g.program = .ask r next' ∧ q.Alike secret r := by
  have program := h.program
  rw [asked] at program
  generalize g.program = p at program
  cases program with
  | ask alike => exact ⟨_, _, rfl, alike⟩

theorem asked (h : f.Alike secret g) {r : Query} {next : r.Answer → Program Result}
    (asked : g.program = .ask r next) : ∃ q next', f.program = .ask q next' ∧ q.Alike secret r := by
  have program := h.program
  rw [asked] at program
  generalize f.program = p at program
  cases program with
  | ask alike => exact ⟨_, _, rfl, alike⟩

end Flight.Alike

namespace Controller

/-- Two controllers differ in a secret at most. -/
structure Alike (secret : Secret) (c d : Controller) : Prop where
  bootstraps : c.bootstraps.Alike (secret = .keyPair) d.bootstraps
  metrics : d.metrics = c.metrics
  backoffs : d.backoffs = c.backoffs
  flights : List.Forall₂ (Flight.Alike secret) c.flights d.flights
  flightsMade : d.flightsMade = c.flightsMade

/-- Two controllers do the same, but for a key or what is signed with it. -/
inductive Effect.Alike (secret : Secret) : Effect → Effect → Prop
  | bootstrap {e e' : Bootstrap.Effect} (alike : e.Alike (secret = .keyPair) id e') :
      Alike secret (.bootstrap e) (.bootstrap e')
  | ended (flight : Nat) (result : Result) (requeue : Option Nat) :
      Alike secret (.ended flight result requeue) (.ended flight result requeue)

/-- The same happens to two controllers. What a pass is told differs in a secret at most, as long as
the pass asks alike in both. -/
inductive Event.Alike (secret : Secret) (c d : Controller) : Event → Event → Prop
  | begin (ns name : String) (delivered : Bool) : Alike secret c d (.begin ns name delivered)
      (.begin ns name delivered)
  | reply (flight : Nat) {answer other : (q : Query) → q.Answer}
      (told : ∀ q r, c.Asks flight q → d.Asks flight r → q.Alike secret r →
        Exchange.Alike secret ⟨q, answer q⟩ ⟨r, other r⟩) :
      Alike secret c d (.reply flight answer) (.reply flight other)
  | bootstrap (event : Bootstrap.Event) : Alike secret c d (.bootstrap event) (.bootstrap event)
  | deleted (ns name : String) : Alike secret c d (.deleted ns name) (.deleted ns name)
  | forget (ns name : String) : Alike secret c d (.forget ns name) (.forget ns name)

structure Agrees (secret : Secret) (p q : Controller × List Effect) : Prop where
  controller : p.1.Alike secret q.1
  effects : List.Forall₂ (Effect.Alike secret) p.2 q.2

namespace Alike

theorem agrees (h : c.Alike secret d) : Agrees secret (c, []) (d, []) := ⟨h, .nil⟩

theorem find? {l m : List Flight} (h : List.Forall₂ (Flight.Alike secret) l m) {p : Flight → Bool}
    (hp : ∀ f g : Flight, f.Alike secret g → p g = p f) :
    Option.Rel (Flight.Alike secret) (l.find? p) (m.find? p) := by
  induction h with
  | nil => exact .none
  | @cons f g l m hfg _ ih =>
      rw [List.find?_cons, List.find?_cons, hp f g hfg]
      cases p f with
      | true => exact .some hfg
      | false => exact ih

theorem flight? (h : c.Alike secret d) (flight : Nat) :
    Option.Rel (Flight.Alike secret) (c.flights.find? (·.id = flight))
      (d.flights.find? (·.id = flight)) :=
  find? h.flights (p := fun f => decide (f.id = flight)) fun f g same => by rw [same.id_eq]

theorem setFlight (h : c.Alike secret d) (hfg : f.Alike secret g) :
    (c.setFlight f).Alike secret (d.setFlight g) :=
  { h with
    flights := by
      refine List.forall₂_map_left_iff.2
        (List.forall₂_map_right_iff.2 (h.flights.imp fun f' g' same => ?_))
      rw [same.id_eq, hfg.id_eq]
      split
      · exact hfg
      · exact same }

theorem account (h : c.Alike secret d) (settings : Settings) (key : String) (flight : Nat)
    (result : Result) :
    Agrees secret ((c.account settings key result).1,
      [.ended flight result (c.account settings key result).2]) ((d.account settings key result).1,
      [.ended flight result (d.account settings key result).2]) := by
  cases result with
  | ok outcome =>
      refine ⟨{ h with metrics := ?_, backoffs := ?_ }, .cons (.ended flight (.ok outcome) _) .nil⟩
      · exact congrArg (·.finished outcome.label) h.metrics
      · exact congrArg (·.reset key) h.backoffs
  | error fault =>
      have requeue :
          (d.account settings key (.error fault)).2 = (c.account settings key (.error fault)).2 :=
        congrArg (fun backoffs : Backoffs => some (backoffs.delay key * 1000)) h.backoffs
      rw [requeue]
      refine ⟨{ h with metrics := ?_, backoffs := ?_ }, .cons (.ended flight (.error fault) _) .nil⟩
      · exact congrArg (·.failed fault) h.metrics
      · exact congrArg (·.fail key) h.backoffs

theorem conclude (h : c.Alike secret d) (hfg : f.Alike secret g) (result : Result) :
    Agrees secret (c.conclude settings f result) (d.conclude settings g result) := by
  have left : Alike secret { c with flights := c.flights.filter (·.id ≠ f.id) }
      { d with flights := d.flights.filter (·.id ≠ g.id) } :=
    { h with
      flights := List.rel_filter (fun f' g' same => by simp [same.id_eq, hfg.id_eq]) h.flights }
  rw [Controller.conclude, Controller.conclude, hfg.same]
  rw [hfg.same] at left
  cases f.delivered with
  | false => exact ⟨left, .cons (.ended f.id result none) .nil⟩
  | true => exact left.account settings (Csr.objectKey f.ns f.name) f.id result

theorem proceed (h : c.Alike secret d) (hfg : f.Alike secret g) {p q : Program Result}
    (program : p.Alike secret Eq q) :
    Agrees secret (c.proceed settings f p) (d.proceed settings g q) := by
  cases program with
  | done same =>
      subst same
      exact h.conclude hfg _
  | ask asked goes => exact (h.setFlight (hfg.goesOn none (.ask asked goes))).agrees

theorem resume (h : c.Alike secret d) (settings : Settings) (call : Nat) {a b : Bootstrap.Answer}
    (told : a.Alike (secret = .keyPair) b) :
    Agrees secret (c.resume settings call a) (d.resume settings call b) := by
  have found := find? h.flights (p := fun f => decide (f.call = some call)) fun f g same => by
    rw [same.call_eq]
  rw [Controller.resume, Controller.resume]
  generalize c.flights.find? _ = x, d.flights.find? _ = y at found
  cases found with
  | none => exact h.agrees
  | @some f g hfg =>
      have program := hfg.program
      dsimp only
      generalize f.program = p, g.program = q at program
      cases program with
      | done => exact h.agrees
      | @ask q _ asked _ _ goes =>
          cases asked with
          | same =>
              cases q with
              | bootstrap request => exact h.proceed hfg (goes a b (.bootstrap request told))
              | _ => exact h.agrees
          | workload | csrClient | createConfigMap => exact h.agrees

theorem hear (h : c.Alike secret d) {effects others : List Bootstrap.Effect}
    (alike : List.Forall₂ (Bootstrap.Effect.Alike (secret = .keyPair) id) effects others) :
    Agrees secret (c.hear settings effects) (d.hear settings others) := by
  induction alike generalizing c d with
  | nil => exact h.agrees
  | cons alike _ ih =>
      cases alike with
      | answer call told =>
          obtain ⟨resumed, more⟩ := h.resume settings call told
          obtain ⟨controller, rest⟩ := ih resumed
          exact ⟨controller, .cons (.bootstrap (.answer call told)) (List.rel_append more rest)⟩
      | submit call same =>
          exact ⟨(ih h).controller, .cons (.bootstrap (.submit call same)) (ih h).effects⟩
      | poll call csr =>
          exact ⟨(ih h).controller, .cons (.bootstrap (.poll call csr)) (ih h).effects⟩
      | sleep call wakeAt =>
          exact ⟨(ih h).controller, .cons (.bootstrap (.sleep call wakeAt)) (ih h).effects⟩

theorem release (h : c.Alike secret d) (key : String) :
    Alike secret { c with bootstraps := c.bootstraps.release key } { d with
      bootstraps := d.bootstraps.release key } :=
  { h with bootstraps := Bootstrap.View.Shows.release h.bootstraps key }

theorem reply (h : c.Alike secret d) (settings : Settings) (hfg : f.Alike secret g)
    {answer other : (q : Query) → q.Answer}
    (told : ∀ q r next next', f.program = .ask q next → g.program = .ask r next' →
      q.Alike secret r → Exchange.Alike secret ⟨q, answer q⟩ ⟨r, other r⟩) :
    Agrees secret (c.reply settings f answer f.program) (d.reply settings g other g.program) := by
  have program := hfg.program
  generalize f.program = p, g.program = q at program told
  cases program with
  | done same =>
      subst same
      exact h.conclude hfg _
  | @ask q _ asked _ _ goes =>
      have hears := told _ _ _ _ rfl rfl asked
      cases asked with
      | workload | csrClient | createConfigMap => exact h.proceed hfg (goes _ _ hears)
      | same =>
          cases q with
          | clock =>
              have now : d.bootstraps.now = c.bootstraps.now := h.bootstraps.now
              exact h.proceed hfg (goes _ _ (.told (.same _) (heq_of_eq now.symm)))
          | observe result elapsed =>
              have observed :
                  Alike secret { c with metrics := c.metrics.observe result (elapsed * 1000) }
                  { d with metrics := d.metrics.observe result (elapsed * 1000) } :=
                { h with metrics := congrArg (·.observe result (elapsed * 1000)) h.metrics }
              exact observed.proceed hfg (goes _ _ (.told (.same _) .rfl))
          | release key => exact (h.release key).proceed hfg (goes _ _ (.told (.same _) .rfl))
          | bootstrap request =>
              have started :
                  Alike secret { c with bootstraps := c.bootstraps.start settings.limits request }
                  { d with bootstraps := d.bootstraps.start settings.limits request } :=
                { h with bootstraps := h.bootstraps.start request }
              have waits := hfg.goesOn (some c.bootstraps.callsMade) hfg.program
              rw [Controller.reply, Controller.reply, h.bootstraps.callsMade]
              exact (started.setFlight waits).agrees
          | _ => exact h.proceed hfg (goes _ _ hears)

theorem begin (h : c.Alike secret d) (ns name : String) (delivered : Bool) :
    (c.begin settings ns name delivered).Alike secret (d.begin settings ns name delivered) :=
  { h with
    flights := by
      refine List.rel_append h.flights (.cons ⟨?_, provision_alike secret settings ns name⟩ .nil)
      rw [h.flightsMade]
    flightsMade := congrArg (· + 1) h.flightsMade }

theorem step (h : c.Alike secret d) (settings : Settings)
    (pairs : ∀ i, SamePair (secret = .keyPair) (keys i) (keys' i)) {e e' : Event}
    (same : Event.Alike secret c d e e') :
    Option.Rel (Agrees secret) (c.step settings keys e) (d.step settings keys' e') := by
  cases same with
  | begin ns name delivered => exact .some (h.begin ns name delivered).agrees
  | forget ns name => exact .some (h.release _).agrees
  | deleted ns name =>
      exact .some
        (agrees { h.release _ with
          backoffs := congrArg (·.reset (Csr.objectKey ns name)) h.backoffs })
  | @reply flight answer other told =>
      have found := h.flight? flight
      simp only [Controller.step]
      generalize hf : c.flights.find? (·.id = flight) = x,
        hg : d.flights.find? (·.id = flight) = y at found ⊢
      cases found with
      | none => exact .none
      | @some f g hfg =>
          cases hcall : f.call with
          | some call =>
              simp [hcall, hfg.call_eq]
          | none =>
              have idle : g.call = none := hfg.call_eq.trans hcall
              have replied := h.reply settings hfg fun q r next next' asked asked' =>
                told q r ⟨f, next, hf, hcall, asked⟩ ⟨g, next', hg, idle, asked'⟩
              simpa [hcall, idle] using replied
  | bootstrap event =>
      have hstep := h.bootstraps.step settings.limits pairs event
      simp only [Controller.step, Controller.bootstrap]
      generalize c.bootstraps.step _ _ _ = x, d.bootstraps.step _ _ _ = y at hstep ⊢
      cases hstep with
      | none => exact .none
      | @some p q agrees =>
          obtain ⟨bootstraps, effects⟩ := agrees
          refine .some (hear ?_ effects)
          rw [h.metrics]
          exact { h with bootstraps, metrics := rfl }

end Alike

/-- What two controllers ask and show is the same, except that those it is meant for are told
another secret. -/
structure Confines (secret : Secret) (c d : Controller) : Prop where
  asks : ∀ flight q, c.Asks flight q → ∃ r, d.Asks flight r ∧ q.Alike secret r
  asked : ∀ flight r, d.Asks flight r → ∃ q, c.Asks flight q ∧ q.Alike secret r
  metrics : d.metrics = c.metrics
  backoffs : d.backoffs = c.backoffs
  store : ∀ i, (d.bootstraps.sessions i).store.summary = (c.bootstraps.sessions i).store.summary
  state : ∀ quote instant i,
    (d.bootstraps.sessions i).state.summary quote instant =
      (c.bootstraps.sessions i).state.summary quote instant
  identity : ∀ quote i a b, (c.bootstraps.sessions i).state = .issued a →
    (d.bootstraps.sessions i).state = .issued b → b.summary quote = a.summary quote

namespace Alike

theorem asks (h : c.Alike secret d) {flight : Nat} {q : Query} (asks : c.Asks flight q) :
    ∃ r, d.Asks flight r ∧ q.Alike secret r := by
  obtain ⟨f, next, hf, idle, hp⟩ := asks
  have found := h.flight? flight
  rw [hf] at found
  generalize hg : d.flights.find? (·.id = flight) = y at found
  cases found with
  | some hfg =>
      obtain ⟨r, next', hq, alike⟩ := hfg.asks hp
      exact ⟨r, ⟨_, next', hg, hfg.call_eq.trans idle, hq⟩, alike⟩

theorem asked (h : c.Alike secret d) {flight : Nat} {r : Query} (asks : d.Asks flight r) :
    ∃ q, c.Asks flight q ∧ q.Alike secret r := by
  obtain ⟨g, next, hg, idle, hq⟩ := asks
  have found := h.flight? flight
  rw [hg] at found
  generalize hf : c.flights.find? (·.id = flight) = x at found
  cases found with
  | some hfg =>
      obtain ⟨q, next', hp, alike⟩ := hfg.asked hq
      exact ⟨q, ⟨_, next', hf, hfg.call_eq.symm.trans idle, hp⟩, alike⟩

theorem confines (h : c.Alike secret d) : Confines secret c d where
  asks _ _ := h.asks
  asked _ _ := h.asked
  metrics := h.metrics
  backoffs := h.backoffs
  store i := (h.bootstraps.session i).store.summary_eq
  state quote instant i := (h.bootstraps.session i).state.summary_eq quote instant
  identity quote i a b ha hb := by
    have alike := (h.bootstraps.session i).state
    rw [ha, hb] at alike
    cases alike with
    | issued same => exact same.summary_eq quote

end Alike

namespace History

variable {bootstraps : Bootstrap.System}

theorem alike_initial (secret : Secret) (bootstraps : Bootstrap.System) :
    Controller.Alike secret ({ bootstraps } : Controller) ({ bootstraps } : Controller) :=
  ⟨.refl bootstraps, rfl, rfl, .nil, rfl⟩

theorem alike (r : History settings keys bootstraps) (r' : History settings keys' bootstraps)
    (pairs : ∀ i, SamePair (secret = .keyPair) (keys i) (keys' i))
    (same : ∀ n, Event.Alike secret (r.state n) (r'.state n) (r.event n) (r'.event n)) (n : Nat) :
    (r.state n).Alike secret (r'.state n) := by
  induction n with
  | zero =>
      rw [r.state_zero, r'.state_zero]
      exact alike_initial secret bootstraps
  | succ n ih =>
      have agrees := ih.step settings pairs (same n)
      rw [r.step_eq, r'.step_eq] at agrees
      cases agrees with
      | some agrees => exact agrees.controller

/-- Take two runs in which the same happens but for one secret: a kubeconfig for the same cluster, a
token, or the key pairs. Then the passes ask and do the same, the same can happen to them, and
everything that is shown is the same. A kubeconfig only goes into the connection to its cluster, a
token into the connection for signing requests, and a key into the request that is signed with it
and into the ConfigMap, after the certificate. -/
theorem secrets_confined (r : History settings keys bootstraps)
    (r' : History settings keys' bootstraps)
    (pairs : ∀ i, SamePair (secret = .keyPair) (keys i) (keys' i))
    (same : ∀ n, Event.Alike secret (r.state n) (r'.state n) (r.event n) (r'.event n)) (n : Nat) :
    Confines secret (r.state n) (r'.state n) ∧
    List.Forall₂ (Effect.Alike secret) (r.effects n) (r'.effects n) ∧
      ∀ e e', Event.Alike secret (r.state n) (r'.state n) e e' →
        ((r'.state n).step settings keys' e').isSome =
          ((r.state n).step settings keys e).isSome := by
  have h := r.alike r' pairs same n
  refine ⟨h.confines, ?_,
    fun e e' same => Bootstrap.View.isSome_of_rel (h.step settings pairs same)⟩
  have agrees := h.step settings pairs (same n)
  rw [r.step_eq, r'.step_eq] at agrees
  cases agrees with
  | some agrees => exact agrees.effects

theorem taken_alike (h : c.Alike secret d)
    (pairs : ∀ i, SamePair (secret = .keyPair) (keys i) (keys' i)) {e e' : Event}
    (same : Event.Alike secret c d e e') :
    let t := Run.taken (Controller.step settings keys) idle c e
    let t' := Run.taken (Controller.step settings keys') idle d e'
    Event.Alike secret c d t.1 t'.1 ∧ t.2.1.Alike secret t'.2.1 := by
  have rel := h.step settings pairs same
  simp only [Run.taken]
  generalize c.step settings keys e = x, d.step settings keys' e' = y at rel
  cases rel with
  | none => exact ⟨.bootstrap _, h⟩
  | some agrees => exact ⟨same, agrees.controller⟩

def SameAnywhere (secret : Secret) (e e' : Event) : Prop :=
  ∀ c d : Controller, Event.Alike secret c d e e'

theorem SameAnywhere.getD {events others : List Event}
    (h : List.Forall₂ (SameAnywhere secret) events others) (n : Nat) :
    SameAnywhere secret (events.getD n idle) (others.getD n idle) := by
  induction h generalizing n with
  | nil => exact fun _ _ => .bootstrap _
  | cons same _ ih =>
      cases n with
      | zero => exact same
      | succ n => exact ih n

theorem SameAnywhere.replicate {e e' : Event} (h : SameAnywhere secret e e') (n : Nat) :
    List.Forall₂ (SameAnywhere secret) (List.replicate n e) (List.replicate n e') := by
  induction n with
  | zero => exact .nil
  | succ n ih => exact .cons h ih

theorem alike_ofEvents (pairs : ∀ i, SamePair (secret = .keyPair) (keys i) (keys' i))
    {events others : List Event} (same : List.Forall₂ (SameAnywhere secret) events others)
    (n : Nat) :
    let r : History settings keys bootstraps := ofEvents events
    let r' : History settings keys' bootstraps := ofEvents others
    Event.Alike secret (r.state n) (r'.state n) (r.event n) (r'.event n) := by
  have states (n : Nat) :
      ((ofEvents events : History settings keys bootstraps).state n).Alike secret
      ((ofEvents others : History settings keys' bootstraps).state n) := by
    induction n with
    | zero => exact alike_initial secret bootstraps
    | succ n ih => exact (taken_alike ih pairs (SameAnywhere.getD same n _ _)).2
  exact (taken_alike (states n) pairs (SameAnywhere.getD same n _ _)).1

def told (kubeconfig token : String) : (q : Query) → q.Answer
  | .secretValue .. => .ok (some kubeconfig)
  | .kubeadmConfig .. => .ok (some ⟨{}, ⟨some ⟨⟨some ⟨token⟩⟩⟩⟩⟩)
  | q => (readyWorld.answer q).1

/-- A pass gets a certificate and goes on to its end. -/
def passage (kubeconfig token : String) : List Event :=
  .begin "n" "m" true :: List.replicate 8 (.reply 0 (told kubeconfig token)) ++
    [.bootstrap (.acquire 0), .bootstrap (.submitted 0 (.ok "csr")),
      .bootstrap (.polled 0 (.ok (some (Pem.encode (certificateUntil "700102000000Z")))))] ++
    List.replicate 8 (.reply 0 (told kubeconfig token))

def passing (kubeconfig token : String) (pair : Key.Pair) :
    History {} (fun _ => pair) { now := 0 } :=
  ofEvents (passage kubeconfig token)

theorem told_alike {text other token changed : String}
    (texts : UpTo (secret = .kubeconfig)
      (fun a b => ClusterAccess.ofText a = ClusterAccess.ofText b) text other)
    (tokens : UpTo (secret = .token) (fun a b => a.isEmpty = false ∧ b.isEmpty = false) token
      changed) {q r : Query}
    (h : q.Alike secret r) :
    Exchange.Alike secret ⟨q, told text token q⟩ ⟨r, told other changed r⟩ := by
  cases h with
  | workload hidden same => exact .told (.workload hidden same _) .rfl
  | csrClient hidden => exact .told (.csrClient hidden _ _ _ _) .rfl
  | createConfigMap hidden name kubeconfig encoded =>
      exact .told (.createConfigMap hidden name kubeconfig encoded _ _) .rfl
  | same =>
      cases q with
      | secretValue ns name key =>
          rcases texts with rfl | ⟨hidden, same⟩
          · exact .told (.same _) .rfl
          · exact .secretValue hidden ns name key same
      | kubeadmConfig ns name =>
          rcases tokens with rfl | ⟨hidden, first, second⟩
          · exact .told (.same _) .rfl
          · have given {token : String} (h : token.isEmpty = false) :
                Api.KubeadmConfig.bootstrapToken ⟨{}, ⟨some ⟨⟨some ⟨token⟩⟩⟩⟩⟩ = some token := by
              simp [Api.KubeadmConfig.bootstrapToken, h]
            exact .kubeadmConfig hidden ns name (given first) (given second)
      | _ => exact .told (.same _) .rfl

theorem passage_alike {text other token changed : String}
    (texts : UpTo (secret = .kubeconfig)
      (fun a b => ClusterAccess.ofText a = ClusterAccess.ofText b) text other)
    (tokens : UpTo (secret = .token) (fun a b => a.isEmpty = false ∧ b.isEmpty = false)
      token changed) :
    List.Forall₂ (SameAnywhere secret) (passage text token) (passage other changed) := by
  have replied : SameAnywhere secret (.reply 0 (told text token)) (.reply 0 (told other changed)) :=
    fun _ _ => .reply 0 fun _ _ _ _ asked => told_alike texts tokens asked
  have issued : List.Forall₂ (SameAnywhere secret)
      [.bootstrap (.acquire 0), .bootstrap (.submitted 0 (.ok "csr")),
        .bootstrap (.polled 0 (.ok (some (Pem.encode (certificateUntil "700102000000Z")))))] _ :=
    .cons (fun _ _ => .bootstrap _)
      (.cons (fun _ _ => .bootstrap _) (.cons (fun _ _ => .bootstrap _) .nil))
  have begins : SameAnywhere secret (.begin "n" "m" true) (.begin "n" "m" true) :=
    fun _ _ => .begin _ _ _
  exact List.rel_append (List.rel_append (.cons begins (replied.replicate 8)) issued)
    (replied.replicate 8)

def publicKubeconfig : String := "clusters: [{name: a, cluster: {server: b}}]"

def userKubeconfig : String :=
  "clusters: [{name: a, cluster: {server: b}}]\nusers: [{name: c, user: {token: d}}]"

theorem kubeconfigs :
    ClusterAccess.ofText publicKubeconfig = ClusterAccess.ofText userKubeconfig := by
  have first : (ClusterAccess.ofText publicKubeconfig).toOption = some ⟨"b", none, none,
    false⟩ := by decide +kernel
  have second : (ClusterAccess.ofText userKubeconfig).toOption = some ⟨"b", none, none, false⟩ := by
    decide +kernel
  rw [eq_ok_of_toOption first, eq_ok_of_toOption second]

def firstPair : Key.Pair := ⟨Bootstrap.History.keyPem, [], fun _ => []⟩

def secondPair : Key.Pair := ⟨Bootstrap.History.keyPem ++ "\n", [0], fun _ => []⟩

theorem pairs_readable :
    readable firstPair.privatePem = readable secondPair.privatePem := by decide +kernel

theorem passing_provisions : ((passing publicKubeconfig "t" firstPair).effects 19).any (fun
    | .ended 0 (.ok .provisioned) _ => true
    | _ => false) = true := by decide +kernel

theorem passing_confined :
    ((passing publicKubeconfig "t" firstPair).effects 19).any (fun
      | .ended 0 (.ok .provisioned) _ => true
      | _ => false) = true ∧
    List.Forall₂ (Effect.Alike .kubeconfig) ((passing publicKubeconfig "t" firstPair).effects 19)
        ((passing userKubeconfig "t" firstPair).effects 19) ∧
      List.Forall₂ (Effect.Alike .token) ((passing publicKubeconfig "t" firstPair).effects 19)
        ((passing publicKubeconfig "u" firstPair).effects 19) ∧
      List.Forall₂ (Effect.Alike .keyPair) ((passing publicKubeconfig "t" firstPair).effects 19)
        ((passing publicKubeconfig "t" secondPair).effects 19) := by
  have readable := pairs_readable
  have provisions := passing_provisions
  generalize firstPair = pair, secondPair = other at readable provisions
  have same (secret : Secret) (i : Nat) : SamePair (secret = .keyPair) pair pair := .refl pair
  have tokens : "t".isEmpty = false ∧ "u".isEmpty = false := by decide
  refine ⟨provisions, ?_, ?_, ?_⟩
  · exact (secrets_confined _ _ (same .kubeconfig)
      (alike_ofEvents (same .kubeconfig) (passage_alike (.inr ⟨rfl, kubeconfigs⟩) (.refl "t")))
        19).2.1
  · exact (secrets_confined _ _ (same .token)
      (alike_ofEvents (same .token) (passage_alike (.refl _) (.inr ⟨rfl, tokens⟩))) 19).2.1
  · have pairs (i : Nat) : SamePair (Secret.keyPair = .keyPair) pair other := .inr ⟨rfl, readable⟩
    exact (secrets_confined _ _ pairs
      (alike_ofEvents pairs (passage_alike (.refl _) (.refl "t"))) 19).2.1

end History

end Controller

end HollowNode
