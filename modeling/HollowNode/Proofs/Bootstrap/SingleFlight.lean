import HollowNode.Proofs.Bootstrap.History

namespace HollowNode.Bootstrap

namespace System

variable {limits : Limits} {keys : Nat → Key.Pair} {s s' : System} {c d : Call}
  {e : Event} {m : Move} {fs : List Effect} {i : Nat} {key reason : String} {entry : Entry}

theorem Moves.session_of_failed (keys : Nat → Key.Pair) (hs : s.Orderly) (hc : c ∈ s.calls)
    (moves : Moves limits s c e m) (held : (s.sessions c.session).state = .failed reason) :
    m.session keys s c = s.sessions c.session := by
  have fits := hs.fits c hc
  rw [held] at fits
  cases moves with
  | reuse next h | renew next h | request next h | resume next h => cases held.symm.trans h
  | turnAway | withdraw | note | overrun | pend | stop | sleep => rfl
  | refused phase | accepted phase | abandoned phase => rw [phase] at fits; cases fits
  | unreachable phase | issue phase | unusable phase | timeOut phase | wake phase =>
      rw [phase] at fits
      obtain ⟨_, _, _, h⟩ := fits
      cases h

theorem Step.sessions_of_failed (hs : s.Orderly) (step : Step limits keys s e s' fs)
    (held : (s.sessions i).state = .failed reason) : s'.sessions i = s.sessions i := by
  cases step with
  | start request => rw [start_sessions]
  | release | advance => rfl
  | @move c e m mem moves =>
      by_cases hi : i = c.session
      · subst hi
        rw [after_session]
        exact moves.session_of_failed keys hs mem held
      · exact after_sessions_of_ne hi

theorem Moves.session_ne_idle (moves : Moves limits s c e m)
    (held : (s.sessions c.session).state ≠ .idle) : (m.session keys s c).state ≠ .idle := by
  cases moves with
  | reuse | turnAway | overrun | pend | stop | sleep | withdraw | note => exact held
  | renew | request | resume | refused | accepted | abandoned | unreachable | issue | unusable
      | timeOut | wake =>
      simp [Move.session]

theorem Step.ne_idle (step : Step limits keys s e s' fs) (held : (s.sessions i).state ≠ .idle) :
    (s'.sessions i).state ≠ .idle := by
  cases step with
  | start request => rwa [start_sessions]
  | release | advance => exact held
  | @move c e m mem moves =>
      by_cases hi : i = c.session
      · subst hi
        rw [after_session]
        exact moves.session_ne_idle held
      · rwa [after_sessions_of_ne hi]

theorem Orderly.not_failed (hs : s.Orderly) (hc : c ∈ s.calls) (hq : c.phase ≠ .queued) :
    ¬∃ reason, (s.sessions c.session).state = .failed reason := by
  rintro ⟨reason, held⟩
  have fits := hs.fits c hc
  rw [held] at fits
  cases phase : c.phase with
  | queued => exact hq phase
  | submitting => rw [phase] at fits; cases fits
  | polling | sleeping =>
      rw [phase] at fits
      obtain ⟨_, _, _, h⟩ := fits
      cases h

theorem Moves.not_queued (moves : Moves limits s c e m) (fails : m.Fails) : c.phase ≠ .queued := by
  cases moves with
  | refused phase | unreachable phase | unusable phase | timeOut phase => simp [phase]
  | _ => cases fails

theorem session_of_fails (h : m.Fails) : ∃ reason, (m.session keys s c).state = .failed reason := by
  cases m with
  | fail fault => exact ⟨fault.message, rfl⟩
  | leave | submit | go | note => cases h

/-- Every call has the registered session of its key, unless that session has failed. -/
def Held (s : System) : Prop :=
  ∀ c ∈ s.calls, (∃ reason, (s.sessions c.session).state = .failed reason) ∨
    s.Registered c.request.key c.session

def HeldFor (s : System) (key : String) : Prop :=
  ∀ c ∈ s.calls, c.request.key = key →
    (∃ reason, (s.sessions c.session).state = .failed reason) ∨ s.Registered key c.session

theorem held_iff : s.Held ↔ ∀ key, s.HeldFor key := by
  constructor
  · rintro held key c hc rfl
    exact held c hc
  · exact fun held c hc => held _ c hc rfl

theorem HeldFor.after (hs : s.Orderly) (held : s.HeldFor key) (hc : c ∈ s.calls)
    (moves : Moves limits s c e m) : (s.after keys c m).1.HeldFor key := by
  intro d hd hkey
  obtain ⟨b, hb, hsession, hrequest⟩ : ∃ b ∈ s.calls, b.session = d.session ∧
      b.request = d.request := by
    rcases (hs.mem_after hc).1 hd with ⟨hd, _⟩ | hd
    · exact ⟨d, hd, rfl, rfl⟩
    · obtain ⟨_, hsession, hrequest⟩ := Move.call?_eq hd
      exact ⟨c, hc, hsession.symm, hrequest.symm⟩
  rw [← hsession]
  rw [← hrequest] at hkey
  have step : Step limits keys s e (s.after keys c m).1 (s.after keys c m).2 := .move hc moves
  rcases held b hb hkey with ⟨reason, failed⟩ | ⟨entry, hk, he⟩
  · exact .inl ⟨reason, by rw [step.sessions_of_failed hs failed]; exact failed⟩
  · by_cases fails : m.Fails
    · by_cases hckey : c.request.key = key
      · -- The session that fails is the registered one, which is the one of this call as well.
        have hregistered :=
          (held c hc hckey).resolve_left (hs.not_failed hc (moves.not_queued fails))
        have hsame : b.session = c.session := Registered.unique ⟨entry, hk, he⟩ hregistered
        rw [hsame, after_session]
        exact .inl (session_of_fails fails)
      · exact .inr ⟨entry, by simp [after_registry_of_fails fails, Ne.symm hckey, hk], he⟩
    · exact .inr ⟨entry, by rw [after_registry fails]; exact hk, he⟩

theorem HeldFor.next (hs : s.Orderly) (held : s.HeldFor key) (step : Step limits keys s e s' fs)
    (unreleased : e ≠ .release key) : s'.HeldFor key := by
  cases step with
  | start request =>
      intro d hd hkey
      rw [start_sessions]
      rcases mem_start.1 hd with hd | rfl
      · exact (held d hd hkey).imp_right fun h => h.start hd request
      · exact .inr (hkey ▸ registered_start limits s request)
  | release released =>
      intro d hd hkey
      have hne : key ≠ released := fun h => unreleased (h ▸ rfl)
      refine (held d hd hkey).imp_right fun ⟨entry, hk, he⟩ => ⟨entry, ?_, he⟩
      simp [System.release, hne, hk]
  | advance => exact held
  | move mem moves => exact held.after hs mem moves

theorem Held.next (hs : s.Orderly) (held : s.Held) (step : Step limits keys s e s' fs)
    (unreleased : ∀ key, e ≠ .release key) : s'.Held :=
  held_iff.2 fun key => (held_iff.1 held key).next hs step (unreleased key)

theorem Step.get?_eq_some (step : Step limits keys s e s' fs)
    (hk : s'.registry.get? key = some entry) :
    (∃ request, e = .start request ∧ request.key = key ∧ entry.lastUsed = s.now) ∨
      s.registry.get? key = some entry ∧ ∀ request, e = .start request → request.key ≠ key := by
  cases step with
  | start request =>
      rcases get?_start_eq_some hk with ⟨rfl, rfl⟩ | ⟨hne, hk, _⟩
      · exact .inl ⟨request, rfl, rfl, rfl⟩
      · refine .inr ⟨hk, fun request' he => ?_⟩
        cases he
        exact Ne.symm hne
  | release released =>
      rw [System.release, Dict.get?_erase] at hk
      split at hk
      · cases hk
      · exact .inr ⟨hk, fun request he => by cases he⟩
  | advance => exact .inr ⟨hk, fun request he => by cases he⟩
  | move mem moves =>
      refine .inr ⟨get?_of_get?_after hk, fun request he => ?_⟩
      subst he
      cases moves

theorem registered_or_dropped (hk : s.registry.get? key = some entry)
    (request : Csr.IdentityRequest) :
    (s.start limits request).Registered key entry.session ∨
      request.key ≠ key ∧ s.stays limits entry = false ∧
      (s.start limits request).registry.get? key = none := by
  by_cases hkey : key = request.key
  · subst hkey
    exact .inl (sessionFor_eq hk ▸ registered_start limits s request)
  · cases stays : s.stays limits entry with
    | true => exact .inl ⟨entry, by simp [get?_start, hkey, hk, Option.filter, stays], rfl⟩
    | false => exact .inr ⟨Ne.symm hkey, rfl, by simp [get?_start, hkey, hk, Option.filter, stays]⟩

theorem Step.unregisters (hs : s.Orderly) (held : s.Held) (step : Step limits keys s e s' fs)
    (unreleased : ∀ key, e ≠ .release key) (hk : s.registry.get? key = some entry)
    (gone : ¬s'.Registered key entry.session) :
    (∃ request, e = .start request ∧ request.key ≠ key ∧ s.stays limits entry = false ∧
      s'.registry.get? key = none) ∨ ∃ reason, (s'.sessions entry.session).state =
        .failed reason := by
  cases step with
  | start request =>
      rcases registered_or_dropped hk request with h | ⟨hkey, h⟩
      · exact absurd h gone
      · exact .inl ⟨request, rfl, hkey, h⟩
  | release key => exact absurd rfl (unreleased key)
  | advance => exact absurd ⟨entry, hk, rfl⟩ gone
  | @move c e m mem moves =>
      by_cases fails : m.Fails
      · by_cases hkey : key = c.request.key
        · have hregistered := (held c mem).resolve_left (hs.not_failed mem (moves.not_queued fails))
          have hsame : entry.session = c.session :=
            Registered.unique ⟨entry, hkey ▸ hk, rfl⟩ hregistered
          rw [hsame, after_session]
          exact .inr (session_of_fails fails)
        · exact absurd ⟨entry, by simp [after_registry_of_fails fails, hkey, hk], rfl⟩ gone
      · exact absurd ⟨entry, by rw [after_registry fails]; exact hk, rfl⟩ gone

end System

open HollowNode.Bootstrap.System

namespace History

variable {limits : Limits} {keys : Nat → Key.Pair} {now : Nat} {r : History limits keys now}

/-- The key's session is dropped at some step, because a call for another key starts while no call
has that session, and the last call for the key started no later than the lifetime of sessions
ago. -/
structure Evicts (r : History limits keys now) (n : Nat) (key : String) (i : Nat) : Prop where
  lookup : ∃ request, r.event n = .start request ∧ request.key ≠ key
  before : (r.state n).Registered key i
  after : (r.state (n + 1)).registry.get? key = none
  unheld : ∀ c ∈ (r.state n).calls, c.session ≠ i
  unused : ∀ l < n, ∀ request, r.event l = .start request → request.key = key →
    (r.state l).now + limits.sessionTtl ≤ (r.state n).now

/-- A request submitted for a session at step `i` is over at step `j`: its session has failed, was
found with an expired identity, or was dropped. -/
inductive Over (r : History limits keys now) (i j session : Nat) (key : String) : Prop
  | failed (reason : String) (h : ((r.state j).sessions session).state = .failed reason)
  | expired (n : Nat) (since : i < n) (till : n ≤ j) (identity : ClientIdentity)
      (h : ((r.state n).sessions session).state = .issued identity)
      (dead : identity.notAfter * 1000 ≤ (r.state n).now)
  | evicted (n : Nat) (since : i < n) (till : n < j) (h : r.Evicts n key session)

theorem held (r : History limits keys now)
    (unreleased : ∀ n key, r.event n ≠ .release key) (n : Nat) : (r.state n).Held := by
  induction n with
  | zero =>
      rw [r.state_zero]
      exact fun c hc => absurd hc List.not_mem_nil
  | succ n ih => exact ih.next (r.orderly n) (r.step n) (unreleased n)

theorem failed_mono (r : History limits keys now) {i j session : Nat}
    {reason : String} (hij : i ≤ j) (h : ((r.state i).sessions session).state = .failed reason) :
    ((r.state j).sessions session).state = .failed reason :=
  r.keeps (P := fun s => (s.sessions session).state = .failed reason) hij h fun n _ h => by
    rw [(r.step n).sessions_of_failed (r.orderly n) h]
    exact h

theorem lastUsed (r : History limits keys now) {key : String} {n l : Nat} {entry : Entry}
    {request : Csr.IdentityRequest} (hk : (r.state n).registry.get? key = some entry) (hln : l < n)
    (started : r.event l = .start request) (hkey : request.key = key) :
    (r.state l).now ≤ entry.lastUsed := by
  induction n with
  | zero => exact absurd hln (Nat.not_lt_zero l)
  | succ n ih =>
      rcases (r.step n).get?_eq_some hk with ⟨_, _, _, hused⟩ | ⟨hk, hother⟩
      · rw [hused]
        exact r.now_mono (Nat.le_of_lt_succ hln)
      · rcases Nat.lt_succ_iff_lt_or_eq.1 hln with hln | rfl
        · exact ih hk hln
        · exact absurd hkey (hother request started)

theorem evicts_of_dropped {n : Nat} {key : String} {entry : Entry} {request : Csr.IdentityRequest}
    (hk : (r.state n).registry.get? key = some entry) (started : r.event n = .start request)
    (hkey : request.key ≠ key) (dropped : (r.state n).stays limits entry = false)
    (hnone : (r.state (n + 1)).registry.get? key = none) : r.Evicts n key entry.session := by
  refine ⟨⟨request, started, hkey⟩, ⟨entry, hk, rfl⟩, hnone, ?_, ?_⟩
  · intro c hc hsession
    have used : (r.state n).inFlight entry.session = true :=
      List.any_eq_true.2 ⟨c, hc, by simp [hsession]⟩
    simp [stays, used] at dropped
  · intro l hln request started hkey
    have hused := r.lastUsed hk hln started hkey
    have hmono := r.now_mono (Nat.le_of_lt hln)
    have hlong : limits.sessionTtl ≤ (r.state n).now - entry.lastUsed := by
      simpa [stays] using (Bool.or_eq_false_iff.1 dropped).2
    omega

theorem Submits.spec {i : Nat} {c : Call} {key : String}
    (unreleased : ∀ n key, r.event n ≠ .release key) (h : r.Submits i c key) :
    (r.state i).Registered key c.session ∧ (r.state (i + 1)).Registered key c.session ∧
      ((r.state (i + 1)).sessions c.session).state = .requesting ∧
      (((r.state i).sessions c.session).state = .idle ∨ ∃ identity,
        ((r.state i).sessions c.session).state = .issued identity ∧
        identity.outlives (r.state i).now = false) := by
  obtain ⟨hc, request, heffect, rfl⟩ := h
  obtain ⟨d, hd, session, hid, rfl, moves, hnext⟩ := (r.step i).of_submit heffect
  obtain rfl := (r.orderly i).eq_of_id hd hc hid
  obtain ⟨_, _, hstate⟩ := moves.of_submit
  have hregistered : (r.state i).Registered d.request.key d.session := by
    refine (r.held unreleased i d hc).resolve_left ?_
    rintro ⟨reason, failed⟩
    rcases hstate with hidle | ⟨identity, hissued, _⟩
    · cases hidle.symm.trans failed
    · cases hissued.symm.trans failed
  refine ⟨hregistered, ?_, ?_, hstate⟩
  · rw [hnext, Registered, after_registry id]
    exact hregistered
  · rw [hnext, after_session]
    rfl

theorem replaced (r : History limits keys now) (unreleased : ∀ n key, r.event n ≠ .release key)
    {i j session : Nat} {key : String} (hij : i < j)
    (before : (r.state (i + 1)).Registered key session)
    (gone : ¬(r.state j).Registered key session) : r.Over i j session key := by
  obtain ⟨n, hin, hnj, ⟨entry, hk, rfl⟩, hnot⟩ :=
    r.exists_last (P := fun s => s.Registered key session) hij before gone
  rcases (r.step n).unregisters (r.orderly n) (r.held unreleased n) (unreleased n) hk hnot with
    ⟨request, started, hkey, dropped, hnone⟩ | ⟨reason, failed⟩
  · exact .evicted n hin hnj (evicts_of_dropped hk started hkey dropped hnone)
  · exact .failed reason (r.failed_mono hnj failed)

/-- Of two requests for one key, the earlier is over when the later is submitted, and of all calls
for a key one at a time is past the queue. The session that a call waits for or uses is the one
registered for its key until it fails, and no start of another call takes it away. -/
theorem single_flight (r : History limits keys now)
    (unreleased : ∀ n key, r.event n ≠ .release key) :
    (∀ i j c d key, i < j → r.Submits i c key → r.Submits j d key → r.Over i j c.session key) ∧
      (∀ n, ∀ c ∈ (r.state n).calls, ∀ d ∈ (r.state n).calls, c.request.key = d.request.key →
        c.phase ≠ .queued → d.phase ≠ .queued → c = d) ∧
      ∀ n, ∀ c ∈ (r.state n).calls,
        ((∃ reason, ((r.state n).sessions c.session).state = .failed reason) ∨
          (r.state n).Registered c.request.key c.session) ∧
        ((r.state n).Registered c.request.key c.session →
          ∀ request, r.event n = .start request →
            (r.state (n + 1)).Registered c.request.key c.session) := by
  refine ⟨fun i j c d key hij hi hj => ?_, fun n c hc d hd hkey hcq hdq => ?_,
    fun n c hc => ⟨?_, ?_⟩⟩
  · obtain ⟨_, hregistered, hrequesting, _⟩ := hi.spec unreleased
    obtain ⟨hlater, _, _, hstate⟩ := hj.spec unreleased
    by_cases hsame : d.session = c.session
    · -- A session that has submitted before is not new.
      have hne : ((r.state j).sessions c.session).state ≠ .idle :=
        r.keeps (P := fun s => (s.sessions c.session).state ≠ .idle) hij (by simp [hrequesting])
          fun n _ h => (r.step n).ne_idle h
      rw [hsame] at hstate
      obtain ⟨identity, hissued, dead⟩ := hstate.resolve_left hne
      exact .expired j hij (Nat.le_refl j) identity hissued (ClientIdentity.not_outlives_iff.1 dead)
    · exact r.replaced unreleased hij hregistered fun h => hsame (hlater.unique h)
  · have hs := r.orderly n
    have hc' := (r.held unreleased n c hc).resolve_left (hs.not_failed hc hcq)
    have hd' := (r.held unreleased n d hd).resolve_left (hs.not_failed hd hdq)
    exact hs.alone hc hd (hc'.unique (hkey ▸ hd')) hcq hdq
  · exact r.held unreleased n c hc
  · intro hregistered request started
    have step := r.step n
    rw [started] at step
    generalize r.state (n + 1) = s', r.effects n = fs at step
    cases step with
    | start => exact hregistered.start hc request
    | move mem moves => cases moves

/-- A request is refused, and the next call for its key submits another one. -/
def refusal : History {} (fun _ => ⟨"", [], fun _ => []⟩) 0 := ofEvents
  [.start ⟨"a", "a", ""⟩, .acquire 0, .submitted 0 (.error (.denied "no")),
    .start ⟨"a", "a", ""⟩, .acquire 1]

theorem refusal_retried :
    refusal.Submits 1 ⟨0, ⟨"a", "a", ""⟩, 0, .queued, false⟩ "a" ∧
      refusal.Submits 4 ⟨1, ⟨"a", "a", ""⟩, 1, .queued, false⟩ "a" ∧
      (∀ n key, refusal.event n ≠ .release key) ∧ refusal.Over 1 4 0 "a" := by
  have first : refusal.Submits 1 ⟨0, ⟨"a", "a", ""⟩, 0, .queued, false⟩ "a" :=
    ⟨.head _, _, .head _, rfl⟩
  have second : refusal.Submits 4 ⟨1, ⟨"a", "a", ""⟩, 1, .queued, false⟩ "a" :=
    ⟨.head _, _, .head _, rfl⟩
  have unreleased : ∀ n key, refusal.event n ≠ .release key := by
    intro n key h
    have hmem : refusal.event n ∈ _ :: _ := Run.event_ofEvents _ (fun _ => rfl) _ n
    rw [h] at hmem
    simp at hmem
  exact ⟨first, second, unreleased,
    (single_flight refusal unreleased).1 1 4 _ _ _ (by decide) first second⟩

end History

end HollowNode.Bootstrap
