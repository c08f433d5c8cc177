import HollowNode.Proofs.Bootstrap.Provenance
import HollowNode.Proofs.Bootstrap.SingleFlight

namespace HollowNode.Bootstrap

namespace System

variable {limits : Limits} {keys : Nat → Key.Pair} {s s' : System} {c d : Call}
  {e : Event} {m : Move} {fs : List Effect} {i id : Nat} {key : String}

theorem Moves.of_fault {session : Session} {fault : Fault}
    (moves : Moves limits s c e (.leave session (.error fault)))
    (going : ∀ key, fault ≠ .cancelled key) :
    session = s.sessions c.session ∧
      ((∃ reason, (s.sessions c.session).state = .failed reason) ∨
        fault = .outOfRange c.request.key) := by
  cases moves with
  | turnAway next held => exact ⟨rfl, .inl ⟨_, held⟩⟩
  | overrun => exact ⟨rfl, .inr rfl⟩
  | abandoned | stop | withdraw => exact absurd rfl (going _)

theorem Step.get?_eq_none (step : Step limits keys s e s' fs) (hk : s.registry.get? key = none)
    (unstarted : ∀ request, e = .start request → request.key ≠ key) :
    s'.registry.get? key = none := by
  cases hk' : s'.registry.get? key with
  | none => rfl
  | some entry =>
      rcases step.get?_eq_some hk' with ⟨request, he, hkey, _⟩ | ⟨hsome, _⟩
      · exact absurd hkey (unstarted request he)
      · cases hk.symm.trans hsome

/-- A call was the first for a session, and while it still waits for it, nothing has happened to the
session. -/
structure Untouched (s : System) (id i : Nat) : Prop extends Assigned s id i where
  first : ∀ c ∈ s.calls, c.session = i → id ≤ c.id
  idle : (∃ c ∈ s.calls, c.id = id ∧ c.phase = .queued) → (s.sessions i).state = .idle

theorem Untouched.start {request : Csr.IdentityRequest} (hs : s.Orderly)
    (h : s.registry.get? request.key = none) :
    (s.start limits request).Untouched s.callsMade s.sessionsMade := by
  have hnew : s.sessionFor request.key = s.sessionsMade := by simp [sessionFor, h]
  refine ⟨hnew ▸ .start hs limits request, ?_, fun _ => ?_⟩
  · intro d hd hds
    rcases mem_start.1 hd with hd | rfl
    · exact absurd hds (Nat.ne_of_lt (hs.calls d hd).made)
    · exact Nat.le_refl _
  · rw [start_sessions, hs.fresh _ (Nat.le_refl _)]

theorem Untouched.next (h : s.Untouched id i) (hs : s.Orderly) (step : Step limits keys s e s' fs) :
    s'.Untouched id i where
  toAssigned := h.toAssigned.next hs step
  first d hd hdi := by
    cases step.comes hs hd with
    | started request event call =>
        subst call
        exact Nat.le_of_lt h.made
    | left mem => exact h.first d mem hdi
    | moved mem moves call =>
        obtain ⟨hdc, hsession, _⟩ := Move.call?_eq call
        rw [hdc]
        exact h.first _ mem (hsession ▸ hdi)
  idle := by
    rintro ⟨d, hd, hid, waits⟩
    cases step.comes hs hd with
    | started request event call =>
        subst call
        exact absurd hid (Nat.ne_of_gt h.made)
    | moved mem moves call => exact absurd waits (moves.call?_ne_queued call)
    | left mem event =>
        have held := h.idle ⟨d, mem, hid, waits⟩
        rcases step.quiet_or_moves hs i with quiet | ⟨c, hc, hci, m, moves, rfl, _⟩
        · rwa [quiet.session]
        · -- Another call that has the session waits behind this one, and leaves it as it is.
          rcases moves.least keys hs hc with least | ⟨same, _⟩
          · have hle := least d mem ((h.session d mem hid).trans hci.symm)
            have hdc : d.id = c.id := Nat.le_antisymm (hid ▸ h.first c hc hci) hle
            exact absurd (moves.call?_event.trans (congrArg some hdc.symm)) event
          · rw [← hci, after_session, same, hci]
            exact held

theorem Untouched.submits (h : s.Untouched id i) (step : Step limits keys s (.acquire id) s' fs) :
    ∃ signing, .submit id signing ∈ fs := by
  obtain ⟨c, hc, rfl, m, moves, _, rfl⟩ := step.of_call rfl
  have idle (next : s.isNext c = true) : (s.sessions c.session).state = .idle := by
    have waits : c.phase = .queued := by simpa [isNext] using (Bool.and_eq_true_iff.1 next).1
    rw [h.session c hc rfl]
    exact h.idle ⟨c, hc, rfl, waits⟩
  cases moves with
  | request | renew => exact ⟨_, .head _⟩
  | reuse next held | turnAway next held | resume next held => cases (idle next).symm.trans held

end System

open HollowNode.Bootstrap.System

namespace History

variable {limits : Limits} {keys : Nat → Key.Pair} {now n : Nat} {r : History limits keys now}
  {key : String}

theorem heldFor (unreleased : ∀ l < n, r.event l ≠ .release key) : (r.state n).HeldFor key := by
  induction n with
  | zero =>
      rw [r.state_zero]
      exact fun c hc => absurd hc List.not_mem_nil
  | succ n ih =>
      have held := ih fun l hl => unreleased l (Nat.lt_succ_of_lt hl)
      exact held.next (r.orderly n) (r.step n) (unreleased n (Nat.lt_succ_self n))

theorem unregistered {m : Nat} (hnm : n ≤ m) (hk : (r.state n).registry.get? key = none)
    (unstarted : ∀ l, n ≤ l → l < m → ∀ request, r.event l = .start request → request.key ≠ key) :
    (r.state m).registry.get? key = none := by
  induction hnm with
  | refl => exact hk
  | @step m hnm ih =>
      have hm := ih fun l hnl hlm => unstarted l hnl (Nat.lt_succ_of_lt hlm)
      exact (r.step m).get?_eq_none hm (unstarted m hnm (Nat.lt_succ_self m))

theorem submits_of_unregistered {request : Csr.IdentityRequest}
    (hk : (r.state n).registry.get? request.key = none) (started : r.event n = .start request)
    {a : Nat} (hna : n < a) (acquires : r.event a = .acquire (r.state n).callsMade) :
    ∃ signing, .submit (r.state n).callsMade signing ∈ r.effects a := by
  have first : (r.state (n + 1)).Untouched (r.state n).callsMade (r.state n).sessionsMade := by
    have step := r.step n
    rw [started] at step
    generalize r.state (n + 1) = s', r.effects n = fs at step
    cases step with
    | start => exact .start (r.orderly n) hk
    | move mem moves => cases moves
  have untouched : (r.state a).Untouched (r.state n).callsMade (r.state n).sessionsMade :=
    r.keeps (P := fun s => s.Untouched (r.state n).callsMade (r.state n).sessionsMade) hna first
      fun l _ h => h.next (r.orderly l) (r.step l)
  have step := r.step a
  rw [acquires] at step
  exact untouched.submits step

/-- A call fails at a step. The entry of its key is removed whichever session it names, which is the
session of the call if the key was not released before. The next call for the key submits another
request. -/
structure Unregisters (r : History limits keys now) (n : Nat) (c : Call) : Prop where
  failed : ∃ reason, ((r.state (n + 1)).sessions c.session).state = .failed reason
  removed : (r.state (n + 1)).registry.get? c.request.key = none
  own : (∀ l < n, r.event l ≠ .release c.request.key) →
    (r.state n).Registered c.request.key c.session
  again : ∀ m > n, ∀ request, r.event m = .start request → request.key = c.request.key →
    (∀ l, n < l → l < m → ∀ other, r.event l = .start other → other.key ≠ c.request.key) →
    ∀ a > m, r.event a = .acquire (r.state m).callsMade →
      ∃ signing, .submit (r.state m).callsMade signing ∈ r.effects a

theorem unregisters {c : Call} {m : Move} (hc : c ∈ (r.state n).calls)
    (moves : Moves limits (r.state n) c (r.event n) m) (fails : m.Fails)
    (hstate : r.state (n + 1) = ((r.state n).after keys c m).1) : r.Unregisters n c := by
  have removed : (r.state (n + 1)).registry.get? c.request.key = none := by
    rw [hstate, after_registry_of_fails fails, Dict.get?_erase, if_pos rfl]
  refine ⟨?_, removed, ?_, ?_⟩
  · rw [hstate, after_session]
    exact session_of_fails fails
  · intro unreleased
    have hq := moves.not_queued fails
    exact (heldFor unreleased c hc rfl).resolve_left ((r.orderly n).not_failed hc hq)
  · intro m hnm request started hkey unstarted a hma acquires
    have hk : (r.state m).registry.get? request.key = none :=
      hkey ▸ unregistered hnm removed unstarted
    exact submits_of_unregistered hk started hma acquires

/-- A call that gets an error and is not cancelled leaves the sessions of other keys registered.
Either all stays as it is, and then the session of the call has failed before or the call has lasted
too long, or the key has no session any more. -/
theorem failure_unregisters (r : History limits keys now) (n id : Nat) (fault : Fault)
    (h : .answer id (.error fault) ∈ r.effects n) (going : ∀ key, fault ≠ .cancelled key) :
    ∃ c ∈ (r.state n).calls, c.id = id ∧
      (∀ key, key ≠ c.request.key →
        (r.state (n + 1)).registry.get? key = (r.state n).registry.get? key) ∧
      ((r.state (n + 1)).registry = (r.state n).registry ∧
        (r.state (n + 1)).sessions = (r.state n).sessions ∧
          ((∃ reason, ((r.state n).sessions c.session).state = .failed reason) ∨
            fault = .outOfRange c.request.key) ∨
        r.Unregisters n c) := by
  obtain ⟨c, hc, m, moves, hstate, _, single⟩ := (r.step n).of_effect h
  cases m with
  | submit | note => cases single
  | go =>
      cases single
      generalize r.event n = e at moves
      cases moves
  | leave session answer =>
      cases single
      obtain ⟨rfl, why⟩ := moves.of_fault going
      have hself : (r.state n).setSession c.session ((r.state n).sessions c.session) = r.state n :=
        setSession_self _ _
      have hafter : r.state (n + 1) = ((r.state n).finish c (.error fault)).1 := by
        rw [hstate, after, hself]
      refine ⟨c, hc, rfl, fun key _ => ?_, .inl ⟨?_, ?_, why⟩⟩ <;> rw [hafter] <;> rfl
  | fail other =>
      cases single
      refine ⟨c, hc, rfl, fun key hkey => ?_, .inr (unregisters hc moves trivial hstate)⟩
      have fails : (Move.fail fault).Fails := trivial
      rw [hstate, after_registry_of_fails fails, Dict.get?_erase, if_neg hkey]

/-- While a request is polled, its key is released and another request is submitted, which is
pending when the former is denied. -/
def replacement : History { pollWindow := 0 } (fun _ => ⟨"", [], fun _ => []⟩) 0 := ofEvents
  [.start ⟨"a", "a", ""⟩, .acquire 0, .submitted 0 (.ok "first"), .release "a",
    .start ⟨"a", "a", ""⟩, .acquire 1, .submitted 1 (.ok "second"), .polled 1 (.ok none),
    .polled 0 (.error (.denied "no")), .start ⟨"a", "a", ""⟩, .acquire 2]

theorem replacement_lost :
    (∃ c ∈ (replacement.state 8).calls, c.id = 0 ∧ c.request.key = "a" ∧ c.session = 0) ∧
      (∃ fault, .answer 0 (.error fault) ∈ replacement.effects 8 ∧ ∀ key, fault ≠ .cancelled key) ∧
      (replacement.state 8).Registered "a" 1 ∧
      ((replacement.state 8).sessions 1).state = .polling "second" 0 1 ∧
      ¬(replacement.state 9).Registered "a" 1 ∧
      ∃ signing, .submit 2 signing ∈ replacement.effects 10 := by
  refine ⟨⟨⟨0, ⟨"a", "a", ""⟩, 0, .polling 0, false⟩, .head _, rfl, rfl, rfl⟩, ⟨_, .head _, nofun⟩,
    ⟨⟨1, 0⟩, rfl, rfl⟩, rfl, ?_, ⟨_, .head _⟩⟩
  rintro ⟨entry, hk, _⟩
  cases hk

theorem replacement_unregisters :
    (∃ fault, .answer 0 (.error fault) ∈ replacement.effects 8 ∧ ∀ key, fault ≠ .cancelled key) ∧
      ∃ c ∈ (replacement.state 8).calls, c.id = 0 ∧ replacement.Unregisters 8 c := by
  have answered : .answer 0 (.error (.failed "a" (Csr.Fault.denied "no").message)) ∈
    replacement.effects 8 := .head _
  have going : ∀ key, Fault.failed "a" (Csr.Fault.denied "no").message ≠ .cancelled key := nofun
  obtain ⟨c, hc, hid, _, ⟨same, _⟩ | unregisters⟩ :=
    failure_unregisters replacement 8 0 _ answered going
  · exact absurd (congrArg (·.get? "a") same) (by decide)
  · exact ⟨⟨_, answered, going⟩, c, hc, hid, unregisters⟩

end History

end HollowNode.Bootstrap
