import HollowNode.Proofs.Bootstrap.Move

namespace HollowNode.Bootstrap.System

variable {limits : Limits} {keys : Nat → Key.Pair} {s s' : System} {c d : Call}
  {e : Event} {m : Move} {fs : List Effect} {i : Nat} {key : String}

/-- A session was made for a key, and no call and no entry of another key has it. -/
structure Belongs (s : System) (i : Nat) (key : String) : Prop where
  made : i < s.sessionsMade
  calls : ∀ c ∈ s.calls, c.session = i → c.request.key = key
  entries : ∀ k entry, s.registry.get? k = some entry → entry.session = i → k = key

structure Orderly (s : System) : Prop where
  ascending : s.calls.Pairwise fun c d => c.id < d.id
  numbered : ∀ c ∈ s.calls, c.id < s.callsMade
  calls : ∀ c ∈ s.calls, s.Belongs c.session c.request.key
  entries : ∀ key entry, s.registry.get? key = some entry → s.Belongs entry.session key
  first : ∀ c ∈ s.calls, ∀ d ∈ s.calls, c.session = d.session → d.phase ≠ .queued → d.id ≤ c.id
  fits : ∀ c ∈ s.calls, c.phase.Fits (s.sessions c.session).state
  busy : ∀ c ∈ s.calls, c.cancelled = true → c.phase.Busy
  requested : ∀ i, (s.sessions i).state = .requesting →
    ∃ c ∈ s.calls, c.session = i ∧ ∃ start, c.phase = .submitting start
  stored : ∀ i, (s.sessions i).Stored
  fresh : ∀ i, s.sessionsMade ≤ i → s.sessions i = {}

theorem mem_of_call? {id : Nat} (h : s.call? id = some c) : c ∈ s.calls ∧ c.id = id :=
  ⟨List.mem_of_find?_eq_some h, by simpa using List.find?_some h⟩

theorem Orderly.eq_of_id (hs : s.Orderly) (hc : c ∈ s.calls) (hd : d ∈ s.calls) (h : c.id = d.id) :
    c = d := by
  obtain ⟨a, ha, rfl⟩ := List.getElem_of_mem hc
  obtain ⟨b, hb, rfl⟩ := List.getElem_of_mem hd
  have hp := List.pairwise_iff_getElem.1 hs.ascending
  rcases Nat.lt_trichotomy a b with hab | rfl | hab
  · exact absurd h (Nat.ne_of_lt (hp a b ha hb hab))
  · rfl
  · exact absurd h (Nat.ne_of_gt (hp b a hb ha hab))

theorem Orderly.call?_eq (hs : s.Orderly) (hc : c ∈ s.calls) : s.call? c.id = some c := by
  cases hf : s.call? c.id with
  | none => simpa using List.find?_eq_none.1 hf c hc
  | some d =>
      obtain ⟨hd, hid⟩ := mem_of_call? hf
      rw [hs.eq_of_id hd hc hid]

theorem Orderly.least_of_isNext (hs : s.Orderly) (h : s.isNext c = true) :
    c.phase = .queued ∧ ∀ d ∈ s.calls, d.session = c.session → c.id ≤ d.id := by
  simp only [isNext, Bool.and_eq_true, decide_eq_true_eq, Option.any_eq_true] at h
  obtain ⟨hq, f, hf, hid⟩ := h
  refine ⟨hq, fun d hd hds => ?_⟩
  obtain ⟨_, before, after, hl, hb⟩ := List.find?_eq_some_iff_append.1 hf
  have hmem : d ∈ before ∨ d ∈ f :: after := List.mem_append.1 (hl ▸ hd)
  rcases hmem with hd | hd
  · simpa [hds] using hb d hd
  · have hp : (f :: after).Pairwise fun c d => c.id < d.id :=
      (List.pairwise_append.1 (hl ▸ hs.ascending)).2.1
    rcases List.mem_cons.1 hd with rfl | hd
    · exact Nat.le_of_eq hid.symm
    · exact hid ▸ Nat.le_of_lt ((List.pairwise_cons.1 hp).1 d hd)

@[simp]
theorem setSession_self (s : System) (i : Nat) : s.setSession i (s.sessions i) = s := by
  have h : (fun j => if j = i then s.sessions i else s.sessions j) = s.sessions := by
    funext j
    by_cases hj : j = i <;> simp [hj]
  simp only [setSession, h]

@[simp]
theorem setSession_setSession (s : System) (i : Nat) (first second : Session) :
    (s.setSession i first).setSession i second = s.setSession i second := by
  have h : (fun j => if j = i then second else if j = i then first else s.sessions j) =
      fun j => if j = i then second else s.sessions j := by
    funext j
    by_cases hj : j = i <;> simp [hj]
  simp only [setSession, h]

@[simp]
theorem sessions_setSession (s : System) (i : Nat) (session : Session) :
    (s.setSession i session).sessions i = session := by simp [setSession]

theorem poll_eq {csr : String} {submittedAt polls : Nat}
    (held : (s.sessions c.session).state = .polling csr submittedAt polls)
    (going : c.cancelled = false) (start : Nat) :
    s.poll c start = s.after keys c
      (.go { s.sessions c.session with state := .polling csr submittedAt (polls + 1) }
        (.polling start) (.poll c.id csr)) := by
  simp [poll, held, going, after]

theorem Step.of_eq (mem : c ∈ s.calls) (moves : Moves limits s c e m)
    (h : s.after keys c m = (s', fs)) : Step limits keys s e s' fs := by
  have step : Step limits keys s e (s.after keys c m).1 (s.after keys c m).2 := .move mem moves
  rwa [h] at step

theorem Orderly.acquire_step (hs : s.Orderly) (hc : c ∈ s.calls) (next : s.isNext c = true)
    (h : s.acquire keys c = (s', fs)) : Step limits keys s (.acquire c.id) s' fs := by
  obtain ⟨waits, least⟩ := hs.least_of_isNext next
  have going : c.cancelled = false := by
    rw [← Bool.not_eq_true]
    intro stopped
    have busy := hs.busy c hc stopped
    rw [waits] at busy
    exact busy
  rw [System.acquire] at h
  cases held : (s.sessions c.session).state with
  | idle => exact .of_eq hc (.request next held) (by simpa [held, after] using h)
  | requesting =>
      -- The call that submits stands before the one that is next, and is not the same.
      obtain ⟨d, hd, hds, start, submits⟩ := hs.requested _ held
      have hle := hs.first c hc d hd hds.symm (by simp [submits])
      have heq := hs.eq_of_id hc hd (Nat.le_antisymm (least d hd hds) hle)
      rw [heq, submits] at waits
      cases waits
  | polling csr submittedAt polls =>
      rw [held] at h
      exact .of_eq hc (.resume next held) (by rw [← poll_eq held going]; exact h)
  | issued identity =>
      cases alive : identity.outlives s.now with
      | true => exact .of_eq hc (.reuse next held alive) (by simpa [held, alive, after] using h)
      | false => exact .of_eq hc (.renew next held alive) (by simpa [held, alive, after] using h)
  | failed reason => exact .of_eq hc (.turnAway next held) (by simpa [held, after] using h)

theorem submitted_step (hc : c ∈ s.calls) {start : Nat} (phase : c.phase = .submitting start)
    {answer : Except Csr.Fault String} (h : s.submitted c start answer = (s', fs)) :
    Step limits keys s (.submitted c.id answer) s' fs := by
  cases answer with
  | error fault => exact .of_eq hc (.refused phase) h
  | ok csr =>
      cases going : c.cancelled with
      | false =>
          exact .of_eq hc (.accepted phase going)
            (by simpa [System.submitted, poll, going, after] using h)
      | true =>
          exact .of_eq hc (.abandoned phase going)
            (by simpa [System.submitted, poll, going, after] using h)

theorem Orderly.wake_step (hs : s.Orderly) (hc : c ∈ s.calls) {start wakeAt : Nat}
    (phase : c.phase = .sleeping start wakeAt) (due : wakeAt ≤ s.now)
    (h : s.poll c start = (s', fs)) : Step limits keys s (.wake c.id) s' fs := by
  obtain ⟨csr, submittedAt, polls, held⟩ :
      (Phase.sleeping start wakeAt).Fits (s.sessions c.session).state :=
    phase ▸ hs.fits c hc
  have going : c.cancelled = false := by
    rw [← Bool.not_eq_true]
    intro stopped
    have busy := hs.busy c hc stopped
    rw [phase] at busy
    exact busy
  exact .of_eq hc (.wake phase due held) (by rw [← poll_eq held going]; exact h)

theorem cancel_step (hc : c ∈ s.calls) (h : s.cancel c = (s', fs)) :
    Step limits keys s (.cancel c.id) s' fs := by
  cases phase : c.phase with
  | queued | sleeping =>
      refine .of_eq hc (.withdraw (by simp [phase, Phase.Busy])) ?_
      simpa [cancel, phase, after] using h
  | submitting | polling =>
      refine .of_eq hc (.note (by simp [phase, Phase.Busy])) ?_
      simpa [cancel, phase, after] using h

theorem polled_none {csr key : String} {submittedAt polls : Nat}
    (held : (s.sessions c.session).state = .polling csr submittedAt polls)
    (stored : (s.sessions c.session).store = ⟨some key, none⟩) (start : Nat) :
    s.polled limits c start (.ok none) = s.wait limits c start submittedAt := by
  have hself :
      s.setSession c.session ⟨(s.sessions c.session).state, (s.sessions c.session).store⟩ = s :=
    setSession_self s c.session
  have hnone : (s.sessions c.session).store.current s.now = .error .noPair := by
    simp [stored, Store.current]
  simp only [System.polled]
  rw [hself, hnone]
  simp only [held]

theorem polled_some {key : String} (stored : (s.sessions c.session).store = ⟨some key, none⟩)
    (start : Nat) (text : String) :
    s.polled limits c start (.ok (some text)) =
      match ClientIdentity.ofPem s.now text key with
      | .ok identity =>
        (s.setSession c.session ⟨.issued identity, ⟨some key, some text⟩⟩).finish c
          (.ok (.issued identity))
      | .error fault => s.fail c (.failed c.request.key fault.message) := by
  simp only [System.polled, stored, Store.updateCertificate, Store.current]
  have hnow : ∀ i session, (s.setSession i session).now = s.now := fun _ _ => rfl
  rw [hnow]
  cases made : ClientIdentity.ofPem s.now text key with
  | ok identity => simp
  | error fault =>
      cases fault with
      | noPair => exact absurd made (ClientIdentity.ofPem_ne_noPair _ _ _)
      | unreadable part => simp [fail]
      | notValid notBefore notAfter => simp [fail]

theorem Orderly.polled_step (hs : s.Orderly) (hc : c ∈ s.calls) {start : Nat}
    (phase : c.phase = .polling start) {answer : Except Csr.Fault (Option String)}
    (h : s.polled limits c start answer = (s', fs)) :
    Step limits keys s (.polled c.id answer) s' fs := by
  obtain ⟨csr, submittedAt, polls, held⟩ :
      (Phase.polling start).Fits (s.sessions c.session).state :=
    phase ▸ hs.fits c hc
  obtain ⟨key, stored⟩ := (hs.stored c.session).of_polling held
  cases answer with
  | error fault => exact .of_eq hc (.unreachable phase) h
  | ok certificate =>
      cases certificate with
      | none =>
          simp only [polled_none held stored, wait] at h
          split at h
          next late => exact .of_eq hc (.timeOut phase held late) h
          next early =>
            split at h
            next long => exact .of_eq hc (.overrun phase held early long) (by simpa [after] using h)
            next =>
              split at h
              next long =>
                exact .of_eq hc (.pend phase held early long)
                  (by simpa [after, Limits.delay] using h)
              next short =>
                split at h
                next stopped =>
                  exact .of_eq hc (.stop phase held stopped early) (by simpa [after] using h)
                next going =>
                  exact .of_eq hc
                    (.sleep phase held (by simpa using going) early (Nat.le_of_not_lt short))
                    (by simpa [after, Limits.delay] using h)
      | some text =>
          rw [polled_some stored] at h
          cases made : ClientIdentity.ofPem s.now text key with
          | ok identity =>
              rw [made] at h
              exact .of_eq hc (.issue phase stored made) h
          | error fault =>
              rw [made] at h
              exact .of_eq hc (.unusable phase stored made) h

/-- In good order every step is one of the listed ones. -/
theorem Orderly.step (hs : s.Orderly) (h : s.step limits keys e = some (s', fs)) :
    Step limits keys s e s' fs := by
  cases e with
  | start request => cases h; exact .start request
  | release key => cases h; exact .release key
  | advance milliseconds => cases h; exact .advance milliseconds
  | acquire id =>
      obtain ⟨c, hf, hstep⟩ := Option.bind_eq_some_iff.1 h
      obtain ⟨hc, rfl⟩ := mem_of_call? hf
      split at hstep
      next next => exact hs.acquire_step hc next (Option.some.inj hstep)
      next => cases hstep
  | submitted id answer =>
      obtain ⟨c, hf, hstep⟩ := Option.bind_eq_some_iff.1 h
      obtain ⟨hc, rfl⟩ := mem_of_call? hf
      cases phase : c.phase with
      | submitting start =>
          rw [phase] at hstep; exact submitted_step hc phase (Option.some.inj hstep)
      | queued | polling | sleeping => rw [phase] at hstep; cases hstep
  | polled id answer =>
      obtain ⟨c, hf, hstep⟩ := Option.bind_eq_some_iff.1 h
      obtain ⟨hc, rfl⟩ := mem_of_call? hf
      cases phase : c.phase with
      | polling start => rw [phase] at hstep; exact hs.polled_step hc phase (Option.some.inj hstep)
      | queued | submitting | sleeping => rw [phase] at hstep; cases hstep
  | wake id =>
      obtain ⟨c, hf, hstep⟩ := Option.bind_eq_some_iff.1 h
      obtain ⟨hc, rfl⟩ := mem_of_call? hf
      cases phase : c.phase with
      | sleeping start wakeAt =>
          rw [phase] at hstep
          dsimp only at hstep
          split at hstep
          next due => exact hs.wake_step hc phase due (Option.some.inj hstep)
          next => cases hstep
      | queued | submitting | polling => rw [phase] at hstep; cases hstep
  | cancel id =>
      obtain ⟨c, hf, hstep⟩ := Option.bind_eq_some_iff.1 h
      obtain ⟨hc, rfl⟩ := mem_of_call? hf
      exact cancel_step hc (Option.some.inj hstep)

end HollowNode.Bootstrap.System
