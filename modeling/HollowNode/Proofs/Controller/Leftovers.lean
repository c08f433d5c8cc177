import HollowNode.Proofs.Bootstrap.Eviction
import HollowNode.Proofs.Bootstrap.Unregistering
import HollowNode.Proofs.Controller.Waiting

namespace HollowNode.Controller

open Pass

namespace History

variable {settings : Settings} {keys : Nat → Key.Pair} {now n k : Nat} {key : String} {f : Flight}

def Calls (r : History settings keys { now }) (n : Nat) (key : String) : Prop :=
  ∃ f ∈ (r.state n).flights, Csr.objectKey f.ns f.name = key ∧
    ∃ request, (r.state n).Asks f.id (.bootstrap request) ∧ ∃ told, r.event n = .reply f.id told

/-- A pass for the machine with a key ends because it is done, or because the machine is gone. -/
def Finishes (r : History settings keys { now }) (n : Nat) (key : String) : Prop :=
  ∃ f ∈ (r.state n).flights, Csr.objectKey f.ns f.name = key ∧
    ∃ outcome delay, .ended f.id (.ok outcome) delay ∈ r.effects n ∧
      (outcome = .absent ∨ outcome = .provisioned)

theorem request_of_asks (r : History settings keys { now }) (hf : f ∈ (r.state n).flights)
    {request : Csr.IdentityRequest} {next : Bootstrap.Answer → Program Result}
    (asks : f.program = .ask (.bootstrap request) next) : request = .forNode f.ns f.name :=
  (reaches_asks (asks ▸ r.reached n f hf)).served_of_bootstrap.1

theorem calls_of_start {r : History settings keys { now }} (passing : r.Passing)
    {request : Csr.IdentityRequest} (started : r.sessions.event n = .start request) :
    r.Calls n request.key := by
  have hevent : (r.state n).sessionEvent (r.event n) = .start request := started
  have hstep := r.step_eq n
  generalize he : r.event n = e at hevent hstep
  cases e with
  | begin | deleted | forget => cases hevent
  | bootstrap event =>
      obtain rfl : event = .start request := hevent
      exact absurd he (passing n request)
  | reply flight told =>
      obtain ⟨f, found, idle, -, -⟩ := of_step_reply hstep
      obtain rfl : f.id = flight := by simpa using List.find?_some found
      have hf := List.mem_of_find?_eq_some found
      simp only [sessionEvent, found, Option.map_some, Option.getD_some] at hevent
      unfold answerEvent at hevent
      split at hevent
      next asked next asks =>
        obtain rfl : asked = request := by simpa using hevent
        have hrequest := r.request_of_asks hf asks
        exact ⟨f, hf, by rw [hrequest]; rfl, asked, ⟨f, next, found, idle, asks⟩, told, he⟩
      next => cases hevent
      next => cases hevent

theorem Calls.effects {r : History settings keys { now }} (calls : r.Calls n key) :
    r.effects n = [] := by
  obtain ⟨f, -, -, request, ⟨g, next, found, -, asks⟩, told, he⟩ := calls
  have hstep := r.step_eq n
  rw [he] at hstep
  obtain ⟨g', found', -, -, heffects⟩ := of_step_reply hstep
  obtain rfl : g' = g := Option.some.inj (found'.symm.trans found)
  rw [← heffects, asks]
  rfl

theorem Finishes.unregistered {r : History settings keys { now }} (finishes : r.Finishes n key) :
    (r.state (n + 1)).bootstraps.registry.get? key = none := by
  obtain ⟨f, hf, rfl, outcome, delay, ended, final⟩ := finishes
  obtain ⟨g, base, x, hid, -, ends⟩ := (r.act n).of_ended (r.sound n) ended
  obtain rfl : g = f := (r.sound n).eq_of_id ends.mem hf hid
  obtain ⟨t, ht⟩ := (reaches_returns (r.reached_end ends).1).released (by simpa using final)
  obtain ⟨-, hx⟩ := List.append_inj' ht rfl
  obtain rfl : x = ⟨.release (Csr.objectKey g.ns g.name), ()⟩ := List.head_eq_of_cons_eq hx
  obtain ⟨pre, hears, -⟩ := ends.hears
  rw [ends.after, bootstraps_conclude]
  generalize r.event n = e at hears
  cases hears with
  | told => simp [absorb, Bootstrap.System.release]

/-- Nothing of a session is left behind by a pass that ends for good, unless it finds its machine
ready; then the session is one that an earlier pass has asked for and no pass has finished since.
Where no pass for the machine is under way, no call for it is either. -/
theorem leftover_of_ready (r : History settings keys { now }) (passing : r.Passing)
    (hf : f ∈ (r.state n).flights) {outcome : Outcome} {delay : Option Nat}
    (ended : .ended f.id (.ok outcome) delay ∈ r.effects n)
    (final : outcome.requeue? settings.deferRequeue = none) (hnk : n < k)
    (uncalled : ∀ l, n < l → l < k → ¬r.Calls l (Csr.objectKey f.ns f.name)) :
    (outcome ≠ .alreadyReady →
      (r.state k).bootstraps.registry.get? (Csr.objectKey f.ns f.name) = none) ∧
      (∀ entry, (r.state k).bootstraps.registry.get? (Csr.objectKey f.ns f.name) = some entry →
        ∃ l < n, r.Calls l (Csr.objectKey f.ns f.name) ∧
          ∀ m, l < m → m < k → ¬r.Finishes m (Csr.objectKey f.ns f.name)) ∧
      ((∀ g ∈ (r.state k).flights, Csr.objectKey g.ns g.name ≠ Csr.objectKey f.ns f.name) →
        ∀ call ∈ (r.state k).bootstraps.calls, call.request.key ≠ Csr.objectKey f.ns f.name) := by
  -- Once a pass has finished, only a new call registers the key again.
  have since {m : Nat} (hmk : m < k) (finishes : r.Finishes m (Csr.objectKey f.ns f.name))
      (unstarted : ∀ l, m < l → l < k → ∀ request, r.sessions.event l = .start request →
        request.key ≠ Csr.objectKey f.ns f.name) :
      (r.state k).bootstraps.registry.get? (Csr.objectKey f.ns f.name) = none :=
    Bootstrap.History.unregistered (r := r.sessions)
      (n := m + 1) hmk finishes.unregistered unstarted
  refine ⟨fun unready => ?_, fun entry registered => ?_, fun alone call hcall hkey => ?_⟩
  · have finishes : r.Finishes n (Csr.objectKey f.ns f.name) := by
      refine ⟨f, hf, rfl, outcome, delay, ended, ?_⟩
      cases outcome with
      | provisioned => exact .inr rfl
      | absent => exact .inl rfl
      | alreadyReady => exact absurd rfl unready
      | deferred | bootstrapPending => cases final
    refine since hnk finishes fun l hnl hlk request started hkey => uncalled l hnl hlk ?_
    exact hkey ▸ calls_of_start passing started
  · obtain ⟨l, last, -⟩ := Bootstrap.History.lastStart_of_get? (r := r.sessions) registered
    obtain ⟨request, started, hkey⟩ := last.started
    have calls : r.Calls l (Csr.objectKey f.ns f.name) := hkey ▸ calls_of_start passing started
    have hln : l < n := by
      refine Nat.lt_of_le_of_ne (Nat.le_of_not_lt fun hnl => uncalled l hnl last.before calls) ?_
      rintro rfl
      rw [calls.effects] at ended
      cases ended
    refine ⟨l, hln, calls, fun m hlm hmk finishes => ?_⟩
    cases registered.symm.trans (since hmk finishes fun i hmi => last.last i (Nat.lt_trans hlm hmi))
  · obtain ⟨g, hg, waits⟩ := (manned passing k).manned call hcall
    obtain ⟨call', hcall', hid, next, asks⟩ := (manned passing k).waits g hg call.id waits
    obtain rfl : call' = call := (r.sessions.orderly k).eq_of_id hcall' hcall hid
    refine alone g hg ?_
    rw [← hkey, r.request_of_asks hg asks]
    rfl

open Simulation in
def movedWorld : World :=
  let kubeconfig := "clusters: [{name: a, cluster: {server: c}}]"
  { readyWorld with
    secrets :=
    [(("n", kubeconfigSecretName "c"), Dict.ofList [(kubeconfigSecretKey, kubeconfig)])] }

open Simulation in
/-- A pass gets an identity and cannot create the ConfigMap. The cluster moves to another address.
The next pass has the same identity, creates all and does not hear that its last report has arrived,
so that the third finds the machine ready. In the end the machine is gone. -/
def relocationEvents : List Event :=
  let first : (q : Query) → q.Answer
    | .createConfigMap _ => .error (.submission "")
    | q => (readyWorld.answer q).1
  let second : (q : Query) → q.Answer
    | .markReady .. => .error (.statusUpdate "")
    | q => (movedWorld.answer q).1
  let third : (q : Query) → q.Answer := fun q =>
    ((movedWorld.answer (.markReady "n" "m" "kubemark://m")).2.answer q).1
  let last : (q : Query) → q.Answer := fun q => (({} : World).answer q).1
  [[.begin "n" "m" true], List.replicate 8 (.reply 0 first),
    [.bootstrap (.acquire 0), .bootstrap (.submitted 0 (.ok "csr")),
      .bootstrap (.polled 0 (.ok (some Bootstrap.History.certificatePem)))],
    List.replicate 4 (.reply 0 first), [.begin "n" "m" true], List.replicate 8 (.reply 1 second),
    [.bootstrap (.acquire 1)], List.replicate 7 (.reply 1 second),
    [.begin "n" "m" true, .reply 2 third], [.begin "n" "m" true],
    List.replicate 2 (.reply 3 last)].flatten

def relocation : History {} (fun _ => ⟨Bootstrap.History.keyPem, [], fun _ => []⟩) { now := 0 } :=
  ofEvents relocationEvents

theorem relocation_passing : relocation.Passing := by
  intro n request h
  have hmem : relocation.event n ∈ idle :: relocationEvents := event_ofEvents _ n
  rw [h] at hmem
  simp [idle, relocationEvents] at hmem

theorem relocation_course :
    ((relocation.state 34).flights.any fun f => f.id = 2 && f.ns = "n" && f.name = "m") = true ∧
      ((relocation.effects 34).any fun
        | .ended 2 (.ok .alreadyReady) none => true
        | _ => false) = true ∧
      (relocation.state 35).flights.isEmpty = true ∧
      ((relocation.state 35).bootstraps.session? (Csr.objectKey "n" "m")).any (fun session =>
        match session.state with
        | .issued _ => true
        | _ => false) = true ∧
      ((relocation.state 37).flights.any fun f => f.id = 3) = true ∧
      ((relocation.effects 37).any fun
        | .ended 3 (.ok .absent) none => true
        | _ => false) = true := by decide +kernel

theorem relocation_left :
    relocation.Passing ∧ ∃ f ∈ (relocation.state 34).flights, f.ns = "n" ∧ f.name = "m" ∧
    .ended f.id (.ok .alreadyReady) none ∈ relocation.effects 34 ∧
    (relocation.state 35).flights = [] ∧
      ∃ session identity, (relocation.state 35).bootstraps.session? (Csr.objectKey "n" "m") =
        some session ∧ session.state = .issued identity := by
  obtain ⟨found, ended, idle, registered, -⟩ := relocation_course
  obtain ⟨f, hf, hnamed⟩ := List.any_eq_true.1 found
  simp only [Bool.and_eq_true, decide_eq_true_eq] at hnamed
  obtain ⟨⟨hid, hns⟩, hname⟩ := hnamed
  obtain ⟨effect, heffect, ended⟩ := List.any_eq_true.1 ended
  obtain ⟨session, hsession, issued⟩ := (Option.any_eq_true _ _).1 registered
  split at ended
  next =>
    split at issued
    next identity hstate =>
      exact ⟨relocation_passing, f, hf, hns, hname, hid ▸ heffect, List.isEmpty_iff.1 idle, session,
        identity, hsession, hstate⟩
    next => cases issued
  next => cases ended

theorem relocation_dropped :
    ∃ f ∈ (relocation.state 37).flights, .ended f.id (.ok .absent) none ∈ relocation.effects 37 ∧
    (relocation.state 38).bootstraps.registry.get? (Csr.objectKey f.ns f.name) = none := by
  obtain ⟨-, -, -, -, found, ended⟩ := relocation_course
  obtain ⟨f, hf, hid⟩ := List.any_eq_true.1 found
  obtain ⟨effect, heffect, ended⟩ := List.any_eq_true.1 ended
  split at ended
  next =>
    have gone : .ended f.id (.ok .absent) none ∈ relocation.effects 37 :=
      of_decide_eq_true hid ▸ heffect
    have uncalled : ∀ l, 37 < l → l < 38 → ¬relocation.Calls l (Csr.objectKey f.ns f.name) :=
      fun l after before => absurd before (Nat.not_lt.2 after)
    have later : 37 < 38 := by decide
    exact ⟨f, hf, gone,
      (leftover_of_ready relocation relocation_passing hf gone rfl later uncalled).1 (by simp)⟩
  next => cases ended

end History

end HollowNode.Controller
