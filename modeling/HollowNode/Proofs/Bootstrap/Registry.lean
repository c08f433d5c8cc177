import HollowNode.Bootstrap.Observed
import HollowNode.Proofs.Bootstrap.Provenance
import HollowNode.Proofs.Bootstrap.SingleFlight

namespace HollowNode.Bootstrap

namespace System

variable {limits : Limits} {keys : Nat → Key.Pair} {s s' : System} {c d : Call}
  {e : Event} {m : Move} {fs : List Effect} {i : Nat} {key : String}

def Free (s : System) (i : Nat) : Prop := ∀ c ∈ s.calls, c.session = i → c.phase = .queued

def Unfailed (s : System) : Prop :=
  ∀ key entry, s.registry.get? key = some entry → ∀ reason, (s.sessions entry.session).state ≠
    .failed reason

theorem Orderly.not_requesting (hs : s.Orderly) (free : s.Free i) :
    (s.sessions i).state ≠ .requesting := by
  intro held
  obtain ⟨c, hc, hci, start, phase⟩ := hs.requested i held
  cases phase.symm.trans (free c hc hci)

theorem Moves.failed_or (moves : Moves limits s c e m) {reason : String}
    (held : (m.session keys s c).state = .failed reason) :
    m.Fails ∨ (s.sessions c.session).state = .failed reason := by
  cases moves with
  | refused | unreachable | unusable | timeOut => exact .inl trivial
  | reuse | turnAway | overrun | pend | stop | sleep | withdraw | note => exact .inr held
  | renew | request | resume | accepted | abandoned | issue | wake => cases held

theorem Unfailed.next (h : s.Unfailed) (hs : s.Orderly) (step : Step limits keys s e s' fs) :
    s'.Unfailed := by
  intro key entry hk reason held
  cases step with
  | start request =>
      rw [start_sessions] at held
      rcases get?_start_eq_some hk with ⟨rfl, rfl⟩ | ⟨_, hk, _⟩
      · cases hg : s.registry.get? request.key with
        | some old =>
            rw [sessionFor_eq hg] at held
            exact h _ old hg reason held
        | none =>
            have hnew : s.sessionFor request.key = s.sessionsMade := by simp [sessionFor, hg]
            rw [hnew, hs.fresh _ (Nat.le_refl _)] at held
            cases held
      · exact h key entry hk reason held
  | release released =>
      rw [release, Dict.get?_erase] at hk
      split at hk
      · cases hk
      · exact h key entry hk reason held
  | advance milliseconds => exact h key entry hk reason held
  | @move c e m mem moves =>
      have hk' := get?_of_get?_after hk
      by_cases hi : entry.session = c.session
      · rw [hi, after_session] at held
        rcases moves.failed_or held with fails | before
        · rw [after_registry_of_fails fails, (hs.calls c mem).entries key entry hk' hi,
            Dict.get?_erase, if_pos rfl] at hk
          cases hk
        · exact h key entry hk' reason (hi ▸ before)
      · rw [after_sessions_of_ne hi] at held
        exact h key entry hk' reason held

theorem Step.issued (step : Step limits keys s e s' fs) {identity : ClientIdentity}
    (held : (s'.sessions i).state = .issued identity) :
    s'.sessions i = s.sessions i ∨ ∃ c ∈ s.calls, c.session = i ∧
    ∃ key text, e = .polled c.id (.ok (some text)) ∧
      s'.sessions i = ⟨.issued identity, ⟨some key, some text⟩⟩ ∧
      ClientIdentity.ofPem s.now text key = .ok identity := by
  cases step with
  | start request => exact .inl (by rw [start_sessions])
  | release | advance => exact .inl rfl
  | @move c e m mem moves =>
      by_cases hi : i = c.session
      · subst hi
        rw [after_session] at held ⊢
        cases moves with
        | reuse | turnAway | overrun | pend | stop | sleep | withdraw | note => exact .inl rfl
        | renew | request | resume | refused | accepted | abandoned | unreachable | unusable
            | timeOut | wake =>
            cases held
        | issue phase stored usable =>
            cases held
            exact .inr ⟨c, mem, rfl, _, _, rfl, rfl, usable⟩
      · exact .inl (after_sessions_of_ne hi)

end System

namespace Observed

variable {limits : Limits} {keys : Nat → Key.Pair} {s s' : Observed} {e : Event}
  {fs : List Effect} {i : Nat}

/-- What a step does to the system: what the system does by itself, or a call that asks comes or
goes. -/
inductive Step (limits : Limits) (keys : Nat → Key.Pair) (s : Observed) : Event → Observed → Prop
  | event {e : Bootstrap.Event} {system : System} {fs : List Bootstrap.Effect}
      (step : System.Step limits keys s.system e system fs) : Step limits keys s
        (.event e) { s with system }
  | unknown {key : String} (hk : s.system.registry.get? key = none) :
      Step limits keys s (.ask key) s
  | ask {key : String} {entry : Entry} (hk : s.system.registry.get? key = some entry) :
      Step limits keys s (.ask key) (s.ask key entry.session)
  | tell {c : Call} (mem : c ∈ s.system.calls) (next : s.system.isNext c = true) :
      Step limits keys s (.tell c.id) (s.dismiss c)

theorem step_of_eq (hs : s.system.Orderly) (h : s.step limits keys e = some (s', fs)) :
    Step limits keys s e s' := by
  cases e with
  | event e =>
      simp only [step] at h
      split at h
      · cases h
      · obtain ⟨⟨system, effects⟩, hstep, hs'⟩ := Option.map_eq_some_iff.1 h
        cases hs'
        exact .event (hs.step hstep)
  | ask key =>
      simp only [step] at h
      split at h
      next hk => cases h; exact .unknown hk
      next entry hk => cases h; exact .ask hk
  | tell id =>
      obtain ⟨c, hf, hstep⟩ := Option.bind_eq_some_iff.1 h
      obtain ⟨hc, rfl⟩ := System.mem_of_call? hf
      split at hstep
      next next =>
        cases hstep
        exact .tell hc (Bool.and_eq_true_iff.1 next).2
      next => cases hstep

theorem belongs_ask {key k : String} {session : Nat} (h : s.system.Belongs i key)
    (hsession : session = i → k = key) : (s.ask k session).system.Belongs i key where
  made := h.made
  calls d hd hdi := by
    rcases List.mem_append.1 hd with hd | hd
    · exact h.calls d hd hdi
    · cases List.mem_singleton.1 hd
      exact hsession hdi
  entries := h.entries

theorem orderly_ask (hs : s.system.Orderly) {key : String} {entry : Entry}
    (hk : s.system.registry.get? key = some entry) : (s.ask key entry.session).system.Orderly where
  ascending := by
    refine List.pairwise_append.2 ⟨hs.ascending, List.pairwise_singleton _ _, fun c hc d hd => ?_⟩
    rw [List.mem_singleton.1 hd]
    exact hs.numbered c hc
  numbered d hd := by
    rcases List.mem_append.1 hd with hd | hd
    · exact Nat.lt_succ_of_lt (hs.numbered d hd)
    · rw [List.mem_singleton.1 hd]
      exact Nat.lt_succ_self _
  calls d hd := by
    rcases List.mem_append.1 hd with hd | hd
    · exact belongs_ask (hs.calls d hd) fun h => (hs.calls d hd).entries key entry hk h
    · rw [List.mem_singleton.1 hd]
      exact belongs_ask (hs.entries key entry hk) fun _ => rfl
  entries k other hk' := belongs_ask (hs.entries k other hk') fun h =>
    (hs.entries k other hk').entries key entry hk h
  first a ha b hb hab hphase := by
    rcases List.mem_append.1 hb with hb | hb
    · rcases List.mem_append.1 ha with ha | ha
      · exact hs.first a ha b hb hab hphase
      · rw [List.mem_singleton.1 ha]
        exact Nat.le_of_lt (hs.numbered b hb)
    · rw [List.mem_singleton.1 hb] at hphase
      exact absurd rfl hphase
  fits d hd := by
    rcases List.mem_append.1 hd with hd | hd
    · exact hs.fits d hd
    · rw [List.mem_singleton.1 hd]
      trivial
  busy d hd stopped := by
    rcases List.mem_append.1 hd with hd | hd
    · exact hs.busy d hd stopped
    · rw [List.mem_singleton.1 hd] at stopped
      cases stopped
  requested j hj := by
    obtain ⟨d, hd, h⟩ := hs.requested j hj
    exact ⟨d, List.mem_append_left _ hd, h⟩
  stored := hs.stored
  fresh := hs.fresh

theorem orderly_dismiss (limits : Limits) (keys : Nat → Key.Pair) (hs : s.system.Orderly) {c : Call}
    (hc : c ∈ s.system.calls) (next : s.system.isNext c = true) : (s.dismiss c).system.Orderly := by
  have waits : ¬c.phase.Busy := by
    rw [(hs.least_of_isNext next).1]
    exact id
  have moves : System.Moves limits s.system c (.cancel c.id) _ := .withdraw waits
  have withdrawn : (s.system.after keys c _).1.Orderly := hs.after hc moves
  simpa [System.after, System.finish, dismiss] using withdrawn

theorem Step.orderly (hs : s.system.Orderly) (step : Step limits keys s e s') :
    s'.system.Orderly := by
  cases step with
  | event step => exact hs.next step
  | unknown => exact hs
  | ask hk => exact orderly_ask hs hk
  | tell mem next => exact orderly_dismiss limits keys hs mem next

theorem Step.unfailed (hs : s.system.Orderly) (h : s.system.Unfailed)
    (step : Step limits keys s e s') : s'.system.Unfailed := by
  cases step with
  | event step => exact h.next hs step
  | unknown | ask | tell => exact h

theorem Step.sessions_of_failed (hs : s.system.Orderly) (step : Step limits keys s e s')
    {reason : String} (held : (s.system.sessions i).state = .failed reason) :
    s'.system.sessions i = s.system.sessions i := by
  cases step with
  | event step => exact step.sessions_of_failed hs held
  | unknown | ask | tell => rfl

abbrev History (limits : Limits) (keys : Nat → Key.Pair) (now : Nat) :=
  Run (Observed.step limits keys) ({ system := { now } } : Observed)

namespace History

variable {now n : Nat} {r : History limits keys now}

def ofEvents (events : List Event) : History limits keys now :=
  Run.ofEvents (.event (.advance 0)) (fun _ => rfl) events

theorem orderly (r : History limits keys now) (n : Nat) : (r.state n).system.Orderly :=
  r.invariant (P := fun s => s.system.Orderly) (System.orderly_initial now)
    (fun _ _ _ _ h hs => (step_of_eq hs h).orderly hs) n

theorem step (r : History limits keys now) (n : Nat) :
    Step limits keys (r.state n) (r.event n) (r.state (n + 1)) :=
  step_of_eq (r.orderly n) (r.step_eq n)

theorem unfailed (r : History limits keys now) (n : Nat) : (r.state n).system.Unfailed := by
  induction n with
  | zero =>
      rw [r.state_zero]
      intro key entry hk
      cases hk
  | succ n ih => exact (r.step n).unfailed (r.orderly n) ih

/-- An identity was made at an earlier step of the answer to a poll and the key in the store, and is
there since. -/
def Made (r : History limits keys now) (n i : Nat) (identity : ClientIdentity)
    (key text : String) : Prop :=
  ∃ l < n, (∃ c ∈ (r.state l).system.calls, c.session = i ∧
    r.event l = .event (.polled c.id (.ok (some text)))) ∧
    ClientIdentity.ofPem (r.state l).system.now text key = .ok identity ∧
    ∀ m, l < m → m ≤ n → (r.state m).system.sessions i = ⟨.issued identity, ⟨some key, some text⟩⟩

theorem Made.next {identity : ClientIdentity} {key text : String} (h : r.Made n i identity key text)
    (same : (r.state (n + 1)).system.sessions i = (r.state n).system.sessions i) :
    r.Made (n + 1) i identity key text := by
  obtain ⟨l, hl, answered, usable, since⟩ := h
  refine ⟨l, Nat.lt_succ_of_lt hl, answered, usable, fun m hlm hmn => ?_⟩
  rcases Nat.le_succ_iff.1 hmn with hmn | rfl
  · exact since m hlm hmn
  · exact same.trans (since n hl (Nat.le_refl n))

theorem made (r : History limits keys now) (n i : Nat) {identity : ClientIdentity}
    (held : ((r.state n).system.sessions i).state = .issued identity) :
    ∃ key text, r.Made n i identity key text := by
  induction n with
  | zero =>
      rw [r.state_zero] at held
      cases held
  | succ n ih =>
      have kept (same : (r.state (n + 1)).system.sessions i = (r.state n).system.sessions i) :
          ∃ key text, r.Made (n + 1) i identity key text := by
        obtain ⟨key, text, h⟩ := ih (same ▸ held)
        exact ⟨key, text, h.next same⟩
      have step := r.step n
      generalize he : r.event n = e, hs' : r.state (n + 1) = s' at step
      cases step with
      | unknown => exact kept (congrArg (·.system.sessions i) hs')
      | ask | tell => exact kept (congrArg (·.system.sessions i) hs')
      | event step =>
          rw [hs'] at held
          rcases step.issued held with same | ⟨c, hc, hci, key, text, rfl, hsession, usable⟩
          · exact kept (by rw [hs']; exact same)
          · refine ⟨key, text, n, Nat.lt_succ_self n, ⟨c, hc, hci, he⟩, usable, fun m hnm hmn => ?_⟩
            obtain rfl : m = n + 1 := Nat.le_antisymm hmn hnm
            rw [hs']
            exact hsession

/-- A session is new, or waits for the certificate of its key, or has an identity. -/
inductive Settled (r : History limits keys now) (n i : Nat) : Prop
  | idle (session : (r.state n).system.sessions i = ⟨.idle, {}⟩)
  | polling {csr : String} {submittedAt polls : Nat} {key : String}
      (session : (r.state n).system.sessions i = ⟨.polling csr submittedAt polls, ⟨some key, none⟩⟩)
  | issued {identity : ClientIdentity} {key text : String}
      (session : (r.state n).system.sessions i = ⟨.issued identity, ⟨some key, some text⟩⟩)
      (made : r.Made n i identity key text)

theorem settled (r : History limits keys now) (n i : Nat) (free : (r.state n).system.Free i)
    (unfailed : ∀ reason, ((r.state n).system.sessions i).state ≠ .failed reason) :
    r.Settled n i := by
  have stored := (r.orderly n).stored i
  have made (identity : ClientIdentity) := @made _ _ _ r n i identity
  generalize hsession : (r.state n).system.sessions i = session at stored made unfailed
  obtain ⟨state, store⟩ := session
  cases state with
  | idle =>
      cases (show store = {} from stored)
      exact .idle hsession
  | requesting => exact absurd (congrArg Session.state hsession) ((r.orderly n).not_requesting free)
  | polling csr submittedAt polls =>
      obtain ⟨key, hstore⟩ := stored.of_polling rfl
      cases hstore
      exact .polling hsession
  | issued identity =>
      obtain ⟨key, text, l, hl, answered, usable, since⟩ := made identity rfl
      exact .issued (since n hl (Nat.le_refl n)) ⟨l, hl, answered, usable, since⟩
  | failed reason => exact absurd rfl (unfailed reason)

theorem failed_mono {m : Nat} (hnm : n ≤ m) {reason : String}
    (held : ((r.state n).system.sessions i).state = .failed reason) :
    (r.state m).system.sessions i = (r.state n).system.sessions i := by
  induction hnm with
  | refl => rfl
  | @step m hnm ih => exact ((r.step m).sessions_of_failed (r.orderly m) (ih ▸ held)).trans ih

/-- Whatever calls have started, ended and asked: a registered session that no call has is new,
waits for a certificate, or has an identity. A registered session is never failed, nor waiting for a
submission when no call has it. A failed session has nothing in its store and remains as it is. -/
theorem registry_invariant (r : History limits keys now) (n : Nat) :
    (∀ key i, (r.state n).system.Registered key i → (r.state n).system.Free i →
      r.Settled n i ∧ ((r.state n).system.sessions i).state ≠ .requesting) ∧
    (∀ key i, (r.state n).system.Registered key i →
      ∀ reason, ((r.state n).system.sessions i).state ≠ .failed reason) ∧
    ∀ i reason, ((r.state n).system.sessions i).state = .failed reason →
      ((r.state n).system.sessions i).store = {} ∧
        ∀ m ≥ n, (r.state m).system.sessions i = (r.state n).system.sessions i := by
  have unfailed (key : String) (i : Nat) (registered : (r.state n).system.Registered key i) :
      ∀ reason, ((r.state n).system.sessions i).state ≠ .failed reason := by
    obtain ⟨entry, hk, rfl⟩ := registered
    exact r.unfailed n key entry hk
  refine ⟨fun key i registered free => ⟨?_, (r.orderly n).not_requesting free⟩, unfailed,
    fun i reason held => ⟨?_, ?_⟩⟩
  · exact r.settled n i free (unfailed key i registered)
  · simpa only [Session.Stored, held] using (r.orderly n).stored i
  · exact fun m hnm => failed_mono hnm held

/-- A node submits a request, and somebody asks about its session before the request is answered. If
it is not denied, the certificate is there with the first poll. -/
def visit (answer : Except Csr.Fault String) (text pem : String) :
    History {} (fun _ => ⟨pem, [], fun _ => []⟩) 0 :=
  ofEvents [.event (.start ⟨"a", "a", ""⟩), .event (.acquire 0), .ask "a",
    .event (.submitted 0 answer), .event (.polled 0 (.ok (some text)))]

theorem visit_settled :
    ∃ text pem, (visit (.ok "csr") text pem).Settled 5 0 ∧
      (∃ identity, (((visit (.ok "csr") text pem).state 5).system.sessions 0).state =
        .issued identity) ∧
      ∀ m ≥ 4, ((visit (.error (.denied "no")) text pem).state m).system.sessions 0 =
        ⟨.failed (Fault.failed "a" (Csr.Fault.denied "no").message).message, {}⟩ := by
  obtain ⟨identity, usable⟩ := Bootstrap.History.ofPem_certificatePem
  generalize Bootstrap.History.certificatePem = text, Bootstrap.History.keyPem = pem at usable
  let r := visit (.ok "csr") text pem
  let c : Call := ⟨0, ⟨"a", "a", ""⟩, 0, .polling 0, false⟩
  have stored : ((r.state 4).system.sessions c.session).store = ⟨some pem, none⟩ := rfl
  have answered : (r.state 5).system = ((r.state 4).system.polled {} c 0 (.ok (some text))).1 := rfl
  have hnow : (r.state 4).system.now = 0 := rfl
  rw [System.polled_some stored, hnow, usable] at answered
  have registered : (r.state 5).system.Registered "a" 0 := by
    rw [answered]
    exact ⟨⟨0, 0⟩, rfl, rfl⟩
  have calls : (r.state 5).system.calls = [⟨1, ⟨"a", "", ""⟩, 0, .queued, false⟩] := by
    rw [answered]
    rfl
  have free : (r.state 5).system.Free 0 := by
    intro d hd _
    rw [calls] at hd
    rw [List.mem_singleton.1 hd]
  refine ⟨text, pem, ((registry_invariant r 5).1 "a" 0 registered free).1, ⟨identity, ?_⟩,
    ((registry_invariant (visit (.error (.denied "no")) text pem) 4).2.2 0 _ rfl).2⟩
  rw [answered]
  rfl

end History

end Observed

end HollowNode.Bootstrap
