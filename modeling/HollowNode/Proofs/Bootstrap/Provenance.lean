import HollowNode.Proofs.Bootstrap.History

namespace HollowNode.Bootstrap

namespace System

variable {limits : Limits} {keys : Nat → Key.Pair} {s s' : System} {c d : Call}
  {e : Event} {m : Move} {fs : List Effect} {i : Nat}

/-- A step leaves a session alone: it stays as it is, nothing is submitted for it, and those of its
calls that are busy go on waiting for what they waited for. -/
structure Quiet (s : System) (e : Event) (s' : System) (fs : List Effect) (i : Nat) : Prop where
  session : s'.sessions i = s.sessions i
  busy : ∀ d ∈ s'.calls, d.session = i → d.phase.Busy →
    (∃ c ∈ s.calls, c.id = d.id ∧ c.session = i ∧ c.phase = d.phase) ∧
    (∀ answer, e ≠ .submitted d.id answer) ∧ ∀ answer, e ≠ .polled d.id answer
  silent : ∀ c ∈ s.calls, c.session = i → ∀ request, .submit c.id request ∉ fs

theorem Quiet.start (request : Csr.IdentityRequest) (i : Nat) :
    Quiet s (.start request) (s.start limits request) [] i where
  session := by rw [start_sessions]
  busy d hd hdi busy := by
    rcases mem_start.1 hd with hd | rfl
    · exact ⟨⟨d, hd, rfl, hdi, rfl⟩, nofun, nofun⟩
    · exact absurd busy id
  silent := nofun

theorem Moves.busy_of_ne (moves : Moves limits s c e m) (hd : d ∈ s.calls) (hdi : d.session = i)
    (hne : d.id ≠ c.id) : (∃ b ∈ s.calls, b.id = d.id ∧ b.session = i ∧ b.phase = d.phase) ∧
      (∀ answer, e ≠ .submitted d.id answer) ∧ ∀ answer, e ≠ .polled d.id answer := by
  have hcall := moves.call?_event
  refine ⟨⟨d, hd, rfl, hdi, rfl⟩, ?_, ?_⟩
  · rintro answer rfl
    exact hne (Option.some.inj hcall)
  · rintro answer rfl
    exact hne (Option.some.inj hcall)

theorem Moves.quiet_of_ne (hs : s.Orderly) (hc : c ∈ s.calls) (moves : Moves limits s c e m)
    (hi : i ≠ c.session) : Quiet s e (s.after keys c m).1 (s.after keys c m).2 i where
  session := after_sessions_of_ne hi
  busy d hd hdi _ := by
    rcases (hs.mem_after hc).1 hd with ⟨hd, hne⟩ | hd
    · exact moves.busy_of_ne hd hdi hne
    · exact absurd (hdi.symm.trans (Move.call?_eq hd).2.1) hi
  silent d hd hdi request h := by
    have step : Step limits keys s e _ _ := .move hc moves
    obtain ⟨b, hb, _, hid, _, moves', _⟩ := step.of_submit h
    have hbc : b.id = c.id := Option.some.inj (moves'.call?_event.symm.trans moves.call?_event)
    exact hi (hdi ▸ hs.eq_of_id hd hc (hid.symm.trans hbc) ▸ rfl)

theorem Moves.silent (moves : Moves limits s c e m) (hm : ∀ session, m ≠ .submit session) (id : Nat)
    (request : Csr.SigningRequest) : .submit id request ∉ (s.after keys c m).2 := by
  intro h
  cases m with
  | submit session => exact hm session rfl
  | leave | fail => cases List.mem_singleton.1 h
  | go =>
      cases List.mem_singleton.1 h
      cases moves
  | note => cases h

theorem Moves.quiet (hs : s.Orderly) (hc : c ∈ s.calls) (moves : Moves limits s c e m)
    (same : m.session keys s c = s.sessions c.session)
    (stays : ∀ d, m.call? s c = some d → d.phase.Busy → c.phase = d.phase ∧ e = .cancel c.id) :
    Quiet s e (s.after keys c m).1 (s.after keys c m).2 c.session where
  session := after_session.trans same
  busy d hd hdi busy := by
    rcases (hs.mem_after hc).1 hd with ⟨hd, hne⟩ | hd
    · exact moves.busy_of_ne hd hdi hne
    · obtain ⟨hphase, rfl⟩ := stays d hd busy
      exact ⟨⟨c, hc, (Move.call?_eq hd).1.symm, rfl, hphase⟩, nofun, nofun⟩
  silent d _ _ request := by
    refine moves.silent (fun session hm => ?_) d.id request
    subst hm
    have requesting : (s.sessions c.session).state = .requesting := by rw [← same]; rfl
    rcases moves.of_submit.2.2 with hidle | ⟨_, hissued, _⟩
    · cases requesting.symm.trans hidle
    · cases requesting.symm.trans hissued

theorem Step.quiet_or_moves (hs : s.Orderly) (step : Step limits keys s e s' fs) (i : Nat) :
    Quiet s e s' fs i ∨ ∃ c ∈ s.calls, c.session = i ∧ ∃ m, Moves limits s c e m ∧
      s' = (s.after keys c m).1 ∧ fs = (s.after keys c m).2 := by
  cases step with
  | start request => exact .inl (.start request i)
  | release key => exact .inl ⟨rfl, fun d hd hdi _ => ⟨⟨d, hd, rfl, hdi, rfl⟩, nofun, nofun⟩, nofun⟩
  | advance milliseconds =>
      exact .inl ⟨rfl, fun d hd hdi _ => ⟨⟨d, hd, rfl, hdi, rfl⟩, nofun, nofun⟩, nofun⟩
  | @move c e m mem moves =>
      by_cases hi : i = c.session
      · exact .inr ⟨c, mem, hi.symm, m, moves, rfl, rfl⟩
      · exact .inl (moves.quiet_of_ne hs mem hi)

end System

open HollowNode.Bootstrap.System

namespace History

variable {limits : Limits} {keys : Nat → Key.Pair} {now n i : Nat} {r : History limits keys now}
  {csr : String}

/-- The last request that was submitted for a session before a step. -/
structure Request (r : History limits keys now) (n session : Nat) where
  submitted : Nat
  caller : Call
  before : submitted < n
  mem : caller ∈ (r.state submitted).calls
  own : caller.session = session
  submits : .submit caller.id (.new caller.request (keys (r.state submitted).generated)) ∈
    r.effects submitted
  last : ∀ l, submitted < l → l < n → ∀ c ∈ (r.state l).calls, c.session = session →
    ∀ request, .submit c.id request ∉ r.effects l

structure Accepted (r : History limits keys now) (n session : Nat)
    (csr : String) extends Request r n session where
  accepted : Nat
  since : submitted < accepted
  till : accepted < n
  accepts : r.event accepted = .submitted caller.id (.ok csr)
  first : ∀ l, submitted < l → l < accepted → ∀ answer, r.event l ≠ .submitted caller.id answer

structure Polled (r : History limits keys now) (n session : Nat) (csr : String) (id : Nat)
    extends Accepted r n session csr where
  polled : Nat
  later : accepted ≤ polled
  earlier : polled < n
  poller : ∃ c ∈ (r.state polled).calls, c.id = id ∧ c.session = session
  polls : .poll id csr ∈ r.effects polled
  unanswered : ∀ l, polled < l → l < n → ∀ answer, r.event l ≠ .polled id answer

def Request.pair (q : r.Request n i) : Key.Pair := keys (r.state q.submitted).generated

def Request.next (q : r.Request n i)
    (silent : ∀ c ∈ (r.state n).calls, c.session = i →
      ∀ request, .submit c.id request ∉ r.effects n) :
    r.Request (n + 1) i :=
  { q with
    before := Nat.lt_succ_of_lt q.before
    last := by
      intro l hl hln
      rcases Nat.lt_succ_iff_lt_or_eq.1 hln with hln | rfl
      · exact q.last l hl hln
      · exact silent }

def Accepted.next (q : r.Accepted n i csr)
    (silent : ∀ c ∈ (r.state n).calls, c.session = i →
      ∀ request, .submit c.id request ∉ r.effects n) :
    r.Accepted (n + 1) i csr :=
  { q with toRequest := q.toRequest.next silent, till := Nat.lt_succ_of_lt q.till }

def Polled.next {id : Nat} (q : r.Polled n i csr id)
    (silent : ∀ c ∈ (r.state n).calls, c.session = i →
      ∀ request, .submit c.id request ∉ r.effects n)
    (open' : ∀ answer, r.event n ≠ .polled id answer) : r.Polled (n + 1) i csr id :=
  { q with
    toAccepted := q.toAccepted.next silent
    earlier := Nat.lt_succ_of_lt q.earlier
    unanswered := by
      intro l hl hln
      rcases Nat.lt_succ_iff_lt_or_eq.1 hln with hln | rfl
      · exact q.unanswered l hl hln
      · exact open' }

/-- What a session has before a step, told by what happened until then: while it waits for a
submission or a certificate, the key in its store is the one of its last request, and an identity
was made of such a key and the answer to the poll of the request. -/
structure Traced (r : History limits keys now) (n i : Nat) : Prop where
  requesting : ((r.state n).sessions i).state = .requesting → ∃ q : r.Request n i,
    ((r.state n).sessions i).store = ⟨some q.pair.privatePem, none⟩ ∧
    (∀ l, q.submitted < l → l < n → ∀ answer, r.event l ≠ .submitted q.caller.id answer) ∧
    ∀ c ∈ (r.state n).calls, c.session = i → c.phase.Busy → c.id = q.caller.id
  polling : ∀ csr submittedAt polls, ((r.state n).sessions i).state =
    .polling csr submittedAt polls →
      ∃ q : r.Accepted n i csr, (r.state q.accepted).now = submittedAt ∧
      ((r.state n).sessions i).store = ⟨some q.pair.privatePem, none⟩ ∧
      ∀ c ∈ (r.state n).calls, c.session = i → c.phase.Busy →
        ∃ p : r.Polled n i csr c.id, p.toAccepted = q
  issued : ∀ identity, ((r.state n).sessions i).state = .issued identity →
    ∃ l < n, ∃ csr id text, ∃ p : r.Polled l i csr id, r.event l = .polled id (.ok (some text)) ∧
      ClientIdentity.ofPem (r.state l).now text p.pair.privatePem = .ok identity

theorem Traced.quiet (h : r.Traced n i)
    (quiet : Quiet (r.state n) (r.event n) (r.state (n + 1)) (r.effects n) i) :
    r.Traced (n + 1) i where
  requesting hi := by
    -- The call that submitted is still there and waits for the answer to its submission.
    obtain ⟨d, hd, hdi, start, phase⟩ := (r.orderly (n + 1)).requested i hi
    have busy : d.phase.Busy := by rw [phase]; trivial
    obtain ⟨⟨b, hb, hbd, hbi, hphase⟩, submitted, _⟩ := quiet.busy d hd hdi busy
    rw [quiet.session] at hi ⊢
    obtain ⟨q, hstore, hopen, hcalls⟩ := h.requesting hi
    refine ⟨q.next quiet.silent, hstore, fun l hl hln answer => ?_, fun c hc hci busy => ?_⟩
    · rcases Nat.lt_succ_iff_lt_or_eq.1 hln with hln | rfl
      · exact hopen l hl hln answer
      · have hid : b.id = q.caller.id := hcalls b hb hbi (hphase ▸ busy)
        rw [hbd] at hid
        exact hid ▸ submitted answer
    · obtain ⟨⟨a, ha, hac, hai, hphase⟩, _⟩ := quiet.busy c hc hci busy
      exact hac ▸ hcalls a ha hai (hphase ▸ busy)
  polling csr submittedAt polls hi := by
    rw [quiet.session] at hi ⊢
    obtain ⟨q, hnow, hstore, hcalls⟩ := h.polling csr submittedAt polls hi
    refine ⟨q.next quiet.silent, hnow, hstore, fun c hc hci busy => ?_⟩
    obtain ⟨⟨a, ha, hac, hai, hphase⟩, _, polled⟩ := quiet.busy c hc hci busy
    obtain ⟨p, rfl⟩ := hcalls a ha hai (hphase ▸ busy)
    rw [← hac] at polled ⊢
    exact ⟨p.next quiet.silent polled, rfl⟩
  issued identity hi := by
    rw [quiet.session] at hi
    obtain ⟨l, hl, rest⟩ := h.issued identity hi
    exact ⟨l, Nat.lt_succ_of_lt hl, rest⟩

theorem Traced.of_failed {reason : String}
    (held : ((r.state n).sessions i).state = .failed reason) : r.Traced n i where
  requesting hi := by cases held.symm.trans hi
  polling _ _ _ hi := by cases held.symm.trans hi
  issued _ hi := by cases held.symm.trans hi

theorem Traced.of_requesting (held : ((r.state n).sessions i).state = .requesting)
    (q : r.Request n i) (stored : ((r.state n).sessions i).store = ⟨some q.pair.privatePem, none⟩)
    (unanswered : ∀ l, q.submitted < l → l < n →
      ∀ answer, r.event l ≠ .submitted q.caller.id answer)
    (busy : ∀ c ∈ (r.state n).calls, c.session = i → c.phase.Busy → c.id = q.caller.id) :
    r.Traced n i where
  requesting _ := ⟨q, stored, unanswered, busy⟩
  polling _ _ _ hi := by cases held.symm.trans hi
  issued _ hi := by cases held.symm.trans hi

theorem Traced.of_polling {submittedAt polls : Nat}
    (held : ((r.state n).sessions i).state = .polling csr submittedAt polls)
    (q : r.Accepted n i csr) (since : (r.state q.accepted).now = submittedAt)
    (stored : ((r.state n).sessions i).store = ⟨some q.pair.privatePem, none⟩)
    (busy : ∀ c ∈ (r.state n).calls, c.session = i → c.phase.Busy →
      ∃ p : r.Polled n i csr c.id, p.toAccepted = q) :
    r.Traced n i where
  requesting hi := by cases held.symm.trans hi
  polling _ _ _ hi := by
    cases held.symm.trans hi
    exact ⟨q, since, stored, busy⟩
  issued _ hi := by cases held.symm.trans hi

theorem Traced.of_issued {identity : ClientIdentity}
    (held : ((r.state n).sessions i).state = .issued identity) {l id : Nat} (hl : l < n)
    {text : String} (p : r.Polled l i csr id) (answered : r.event l = .polled id (.ok (some text)))
    (usable : ClientIdentity.ofPem (r.state l).now text p.pair.privatePem = .ok identity) :
    r.Traced n i where
  requesting hi := by cases held.symm.trans hi
  polling _ _ _ hi := by cases held.symm.trans hi
  issued _ hi := by
    cases held.symm.trans hi
    exact ⟨l, hl, csr, id, text, p, answered, usable⟩

def Request.accept (q : r.Request n i)
    (silent : ∀ c ∈ (r.state n).calls, c.session = i →
      ∀ request, .submit c.id request ∉ r.effects n)
    (accepts : r.event n = .submitted q.caller.id (.ok csr))
    (first : ∀ l, q.submitted < l → l < n → ∀ answer, r.event l ≠ .submitted q.caller.id answer) :
    r.Accepted (n + 1) i csr :=
  { q.next silent with
    accepted := n, since := q.before, till := Nat.lt_succ_self n, accepts, first }

def Accepted.poll {id : Nat} (q : r.Accepted (n + 1) i csr)
    (poller : ∃ c ∈ (r.state n).calls, c.id = id ∧ c.session = i)
    (polls : .poll id csr ∈ r.effects n) : r.Polled (n + 1) i csr id :=
  { q with
    polled := n
    later := Nat.le_of_lt_succ q.till
    earlier := Nat.lt_succ_self n
    poller
    polls
    unanswered := fun _ hl hln => absurd hl (Nat.not_lt.2 (Nat.le_of_lt_succ hln)) }

theorem Traced.move {c : Call} {m : Move} (h : r.Traced n c.session) (hc : c ∈ (r.state n).calls)
    (moves : Moves limits (r.state n) c (r.event n) m)
    (hstate : r.state (n + 1) = ((r.state n).after keys c m).1)
    (heffects : r.effects n = ((r.state n).after keys c m).2) : r.Traced (n + 1) c.session := by
  have hs := r.orderly n
  have hsession : (r.state (n + 1)).sessions c.session = m.session keys (r.state n) c := by
    rw [hstate, after_session]
  have quiet (same : m.session keys (r.state n) c = (r.state n).sessions c.session)
      (stays : ∀ d, m.call? (r.state n) c = some d → d.phase.Busy →
        c.phase = d.phase ∧ r.event n = .cancel c.id) :
      r.Traced (n + 1) c.session :=
    h.quiet (by rw [hstate, heffects]; exact moves.quiet hs hc same stays)
  have silent (hm : ∀ session, m ≠ .submit session) :
      ∀ d ∈ (r.state n).calls, d.session = c.session →
        ∀ request, .submit d.id request ∉ r.effects n :=
    fun d _ _ request => heffects ▸ moves.silent hm d.id request
  have alone {d : Call} (hd : m.call? (r.state n) c = some d) (busy : d.phase.Busy) :
      ∀ b ∈ (r.state (n + 1)).calls, b.session = c.session → b.phase.Busy → b.id = c.id := by
    intro b hb hbc hbusy
    obtain ⟨hid, hdc, _⟩ := Move.call?_eq hd
    have hd' : d ∈ (r.state (n + 1)).calls := by rw [hstate]; exact (hs.mem_after hc).2 (.inr hd)
    rw [← hid, (r.orderly (n + 1)).alone hb hd' (hbc.trans hdc.symm) hbusy.ne_queued busy.ne_queued]
  have nothing : ∀ l, n < l → l < n + 1 → False :=
    fun _ hl hln => Nat.not_lt.2 (Nat.le_of_lt_succ hln) hl
  generalize he : r.event n = e at moves quiet
  cases moves with
  | reuse | turnAway | overrun | pend | stop | withdraw => exact quiet rfl fun d hd => by cases hd
  | sleep => exact quiet rfl fun d hd busy => by cases hd; exact absurd busy id
  | note => exact quiet rfl fun d hd _ => by cases hd; exact ⟨rfl, rfl⟩
  | refused | unreachable | unusable | timeOut => exact .of_failed (congrArg Session.state hsession)
  | renew | request =>
      exact .of_requesting (congrArg Session.state hsession) ⟨n, c, Nat.lt_succ_self n, hc, rfl,
        heffects ▸ .head _, fun l hl hln => (nothing l hl hln).elim⟩
        (congrArg Session.store hsession) (fun l hl hln => (nothing l hl hln).elim)
        (alone rfl trivial)
  | resume next held | wake phase due held =>
      obtain ⟨q, hnow, hstore, _⟩ := h.polling _ _ _ held
      refine .of_polling (congrArg Session.state hsession) (q.next (silent nofun)) hnow
        ((congrArg Session.store hsession).trans hstore) fun b hb hbc busy => ?_
      rw [alone rfl trivial b hb hbc busy]
      exact ⟨(q.next (silent nofun)).poll ⟨c, hc, rfl, rfl⟩ (heffects ▸ .head _), rfl⟩
  | accepted phase going =>
      obtain ⟨q, hstore, first, hcalls⟩ := h.requesting (hs.requesting hc phase)
      have hid : c.id = q.caller.id := hcalls c hc rfl (by rw [phase]; trivial)
      let q' := q.accept (silent nofun) (hid ▸ he) first
      refine .of_polling (congrArg Session.state hsession) q' rfl
        ((congrArg Session.store hsession).trans hstore) fun b hb hbc busy => ?_
      rw [alone rfl trivial b hb hbc busy]
      exact ⟨q'.poll ⟨c, hc, rfl, rfl⟩ (heffects ▸ .head _), rfl⟩
  | abandoned phase stopped =>
      obtain ⟨q, hstore, first, hcalls⟩ := h.requesting (hs.requesting hc phase)
      have busy : c.phase.Busy := by rw [phase]; trivial
      have hid : c.id = q.caller.id := hcalls c hc rfl busy
      refine .of_polling (congrArg Session.state hsession)
        (q.accept (silent nofun) (hid ▸ he) first) rfl
        ((congrArg Session.store hsession).trans hstore) fun b hb hbc hbusy => ?_
      -- The call that ends was the only one of its session past the queue.
      rw [hstate] at hb
      rcases (hs.mem_after hc).1 hb with ⟨hb, hne⟩ | hb
      · exact absurd (hs.alone hb hc hbc hbusy.ne_queued busy.ne_queued ▸ rfl) hne
      · cases hb
  | issue phase stored usable =>
      obtain ⟨csr, submittedAt, polls, held⟩ : (Phase.polling _).Fits _ := phase ▸ hs.fits c hc
      obtain ⟨q, _, hstore, hcalls⟩ := h.polling csr submittedAt polls held
      obtain ⟨p, rfl⟩ := hcalls c hc rfl (by rw [phase]; trivial)
      cases stored.symm.trans hstore
      exact .of_issued (congrArg Session.state hsession) (Nat.lt_succ_self n) p he usable

theorem traced (r : History limits keys now) (n i : Nat) : r.Traced n i := by
  induction n with
  | zero => exact ⟨by simp [r.state_zero], by simp [r.state_zero], by simp [r.state_zero]⟩
  | succ n ih =>
      rcases (r.step n).quiet_or_moves (r.orderly n) i with quiet
        | ⟨c, hc, rfl, m, moves, hstate, heffects⟩
      · exact ih.quiet quiet
      · exact ih.move hc moves hstate heffects

theorem handed {id : Nat} {identity : ClientIdentity}
    (h : .answer id (.ok (.issued identity)) ∈ r.effects n) :
    ∃ c ∈ (r.state n).calls, c.id = id ∧
      ∃ l ≤ n, ∃ csr poller text, ∃ p : r.Polled l c.session csr poller, r.event l =
      .polled poller (.ok (some text)) ∧
      ClientIdentity.ofPem (r.state l).now text p.pair.privatePem = .ok identity ∧
      (l = n ∨ identity.outlives (r.state n).now = true) := by
  obtain ⟨c, hc, hid, ⟨session, moves⟩ | ⟨fault, failed, _⟩⟩ := (r.step n).of_answer h
  case inr => cases failed
  refine ⟨c, hc, hid, ?_⟩
  generalize he : r.event n = e at moves
  cases moves with
  | reuse next held alive =>
      obtain ⟨l, hl, csr, poller, text, p, answered, usable⟩ :=
        (r.traced n c.session).issued identity held
      exact ⟨l, Nat.le_of_lt hl, csr, poller, text, p, answered, usable, .inr alive⟩
  | issue phase stored usable =>
      obtain ⟨csr, submittedAt, polls, held⟩ : (Phase.polling _).Fits _ :=
        phase ▸ (r.orderly n).fits c hc
      obtain ⟨q, _, hstore, hcalls⟩ := (r.traced n c.session).polling csr submittedAt polls held
      obtain ⟨p, rfl⟩ := hcalls c hc rfl (by rw [phase]; trivial)
      cases stored.symm.trans hstore
      exact ⟨n, Nat.le_refl n, csr, c.id, _, p, he, usable, .inl rfl⟩

theorem handed_valid {id : Nat} {identity : ClientIdentity}
    (h : .answer id (.ok (.issued identity)) ∈ r.effects n) :
    ∃ block certificate, block.label = ClientIdentity.certificateLabel ∧
      identity.certificatePem = Pem.encode block ∧
      Certificate.ofDer? block.contents = some certificate ∧ certificate.notBefore.millis ≤
      (r.state n).now ∧ (r.state n).now ≤ certificate.notAfter.millis := by
  obtain ⟨c, -, -, l, hl, csr, poller, text, p, -, usable, fresh⟩ := handed h
  obtain ⟨block, certificate, -, hder, valid, _, rfl⟩ := ClientIdentity.ofPem_eq_ok_iff.1 usable
  obtain ⟨hstart, hend⟩ := Certificate.bounds_of_isValidAt valid
  have hnow := r.now_mono hl
  refine ⟨⟨ClientIdentity.certificateLabel, block.contents⟩, certificate, rfl, rfl,
    hder, by omega, ?_⟩
  rcases fresh with rfl | alive
  · exact hend
  · have hmillis := ClientIdentity.outlives_iff.1 alive
    simp only [Moment.millis] at hmillis ⊢
    omega

/-- An identity that a call gets consists of the key that was made for one request of its key and
the first certificate in the answer to a poll of that request, and it is valid when the call gets
it. -/
theorem identity_provenance (r : History limits keys now) (n id : Nat) (identity : ClientIdentity)
    (h : .answer id (.ok (.issued identity)) ∈ r.effects n) :
    ∃ c ∈ (r.state n).calls, c.id = id ∧
      ∃ l ≤ n, ∃ csr poller text, ∃ p : r.Polled l c.session csr poller, p.caller.request.key =
      c.request.key ∧ r.event l = .polled poller (.ok (some text)) ∧
      identity.privateKeyPem = ClientIdentity.withLineEnd p.pair.privatePem ∧
      (∀ j id request, .submit id request ∈ r.effects j →
        (r.state j).generated = (r.state p.submitted).generated → j = p.submitted) ∧
      ∃ blocks block certificate, Pem.blocks? text = some blocks ∧
        blocks.find? (·.label = ClientIdentity.certificateLabel) = some block ∧
        identity.certificatePem = Pem.encode block ∧
        Certificate.ofDer? block.contents = some certificate ∧ certificate.notBefore.millis ≤
        (r.state n).now ∧ (r.state n).now ≤ certificate.notAfter.millis := by
  obtain ⟨c, hc, hid, l, hl, csr, poller, text, p, answered, usable, fresh⟩ := handed h
  obtain ⟨block, certificate, hleaf, hder, valid, _, rfl⟩ := ClientIdentity.ofPem_eq_ok_iff.1 usable
  obtain ⟨blocks, hblocks, hfind⟩ := ClientIdentity.leaf_eq_ok_iff.1 hleaf
  have hlabel : block.label = ClientIdentity.certificateLabel := by
    simpa using List.find?_some hfind
  obtain ⟨hstart, hend⟩ := Certificate.bounds_of_isValidAt valid
  have hnow := r.now_mono hl
  refine ⟨c, hc, hid, l, hl, csr, poller, text, p, ?_, answered, rfl, ?_, blocks, block,
    certificate, hblocks, hfind, ?_, hder, by omega, ?_⟩
  · have belongs := (r.orderly p.submitted).calls p.caller p.mem
    rw [p.own] at belongs
    exact ((r.belongs (Nat.le_trans (Nat.le_of_lt p.before) hl) belongs).calls c hc rfl).symm
  · exact fun j id request hj => r.generated_injective hj p.submits
  · rw [← hlabel]
  · rcases fresh with rfl | alive
    · exact hend
    · have hmillis : ((r.state n).now : Int) < certificate.notAfter.seconds * 1000 :=
        ClientIdentity.outlives_iff.1 alive
      simp only [Moment.millis]
      omega

def certificateBytes : List UInt8 :=
  let algorithm := Der.writeSequence [Der.write Der.objectIdentifier [42]]
  let bits := Der.writeBits []
  let validity := Der.writeSequence
    [Der.write Der.utcTime ("700101000000Z".toList.map fun c => UInt8.ofNat c.toNat),
      Der.write Der.utcTime ("700102000000Z".toList.map fun c => UInt8.ofNat c.toNat)]
  let signed :=
    Der.writeSequence [Der.write Der.integer [1], algorithm, Der.writeSequence [], validity,
    Der.writeSequence [], Der.writeSequence [algorithm, bits]]
  Der.writeSequence [signed, algorithm, bits]

def certificatePem : String := Pem.encode ⟨ClientIdentity.certificateLabel, certificateBytes⟩

def keyBytes : List UInt8 :=
  Der.writeSequence [Der.write Der.integer [0], Der.write 0x30 Key.Private.ed25519Algorithm,
    Der.write Der.octetString (Der.write Der.octetString (List.replicate 32 0))]

def keyPem : String := Pem.encode ⟨"PRIVATE KEY", keyBytes⟩

theorem ofPem_certificatePem :
    ∃ identity, ClientIdentity.ofPem 0 certificatePem keyPem = .ok identity := by
  have hblocks :
      Pem.blocks? certificatePem = some [⟨ClientIdentity.certificateLabel, certificateBytes⟩] :=
    (Pem.blocks?_ofList _).trans (by decide +kernel)
  have hleaf : ClientIdentity.leaf certificatePem = .ok ⟨ClientIdentity.certificateLabel,
      certificateBytes⟩ :=
    ClientIdentity.leaf_eq_ok_iff.2 ⟨_, hblocks, by simp⟩
  have hvalid : (Certificate.ofDer? certificateBytes).any (·.isValidAt 0) = true := by
    decide +kernel
  obtain ⟨certificate, hder, valid⟩ := (Option.any_eq_true _ _).1 hvalid
  have hfirst : Pem.first? keyPem = some ⟨"PRIVATE KEY", keyBytes⟩ :=
    (Pem.first?_ofList _).trans (by decide +kernel)
  have hkey : (Key.Private.ofDer? keyBytes).isSome = true := by decide +kernel
  refine ⟨_, ClientIdentity.ofPem_eq_ok_iff.2 ⟨_, certificate, hleaf, hder, valid, ?_, rfl⟩⟩
  simpa [Key.Private.ofPem?, hfirst] using hkey

/-- A node gets its certificate with the first poll. -/
def issuance (text pem : String) : History {} (fun _ => ⟨pem, [], fun _ => []⟩) 0 := ofEvents
  [.start ⟨"a", "a", ""⟩, .acquire 0, .submitted 0 (.ok "csr"), .polled 0 (.ok (some text))]

theorem effects_issuance {text pem : String} {identity : ClientIdentity}
    (usable : ClientIdentity.ofPem 0 text pem = .ok identity) :
    (issuance text pem).effects 3 = [.answer 0 (.ok (.issued identity))] := by
  let c : Call := ⟨0, ⟨"a", "a", ""⟩, 0, .polling 0, false⟩
  have stored : (((issuance text pem).state 3).sessions c.session).store = ⟨some pem, none⟩ := rfl
  have answered : (issuance text pem).effects 3 =
      (((issuance text pem).state 3).polled {} c 0 (.ok (some text))).2 :=
    rfl
  have hnow : ((issuance text pem).state 3).now = 0 := rfl
  rw [answered, polled_some stored, hnow, usable]
  rfl

theorem issuance_provenance :
    ∃ identity, .answer 0 (.ok (.issued identity)) ∈ (issuance certificatePem keyPem).effects 3 ∧
      ∃ c ∈ ((issuance certificatePem keyPem).state 3).calls, c.id = 0 ∧ ∃ l ≤ 3, ∃ csr poller,
        ∃ p : (issuance certificatePem keyPem).Polled l c.session csr poller,
          p.caller.request.key = c.request.key ∧
          identity.privateKeyPem = ClientIdentity.withLineEnd p.pair.privatePem := by
  obtain ⟨identity, usable⟩ := ofPem_certificatePem
  have answered :
      .answer 0 (.ok (.issued identity)) ∈ (issuance certificatePem keyPem).effects 3 := by
    rw [effects_issuance usable]
    exact .head _
  obtain ⟨c, hc, hid, l, hl, csr, poller, text, p, hkey, _, hpem, _⟩ :=
    identity_provenance _ 3 0 identity answered
  exact ⟨identity, answered, c, hc, hid, l, hl, csr, poller, p, hkey, hpem⟩

end History

end HollowNode.Bootstrap
