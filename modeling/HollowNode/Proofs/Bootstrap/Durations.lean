import HollowNode.Proofs.Bootstrap.Polling
import HollowNode.Proofs.Settings.Reading

namespace HollowNode

namespace Settings

variable {lookup : String → Option String} {name value : String} {fallback time : Nat}
  {settings : Settings}

theorem Seconds.add_le (h : Seconds value time) : time + 1000 ≤ Bootstrap.durationLimit := by
  obtain ⟨n, _, hn, rfl⟩ := h
  show n * 1000 + 1000 ≤ 2 ^ 64 * 1000
  omega

theorem Denotes.add_le (h : Denotes lookup name Seconds fallback time)
    (short : fallback + 1000 ≤ Bootstrap.durationLimit) :
    time + 1000 ≤ Bootstrap.durationLimit := by
  cases h with
  | given gives read => exact read.add_le
  | missing => exact short

theorem timeout_add_le (accepted : ofLookup lookup = .ok settings) :
    settings.limits.timeout + 1000 ≤ Bootstrap.durationLimit :=
  (ofLookup_eq_ok_iff.1 accepted).limits.timeout.add_le (by decide)

end Settings

namespace Bootstrap

/-- How long a call has had its session since `start` when its next poll is due. -/
def Limits.span (limits : Limits) (now start submittedAt : Nat) : Nat :=
  now - start + limits.delay now submittedAt

theorem Limits.span_le {limits : Limits} {now submittedAt : Nat} (start : Nat)
    (accepted : submittedAt ≤ now) (early : now < submittedAt + limits.timeout) :
    limits.span now start submittedAt ≤ submittedAt - start + limits.timeout := by
  rw [span, delay]
  omega

open HollowNode.Bootstrap.System

theorem System.overruns_iff {limits : Limits} {s : System} {c : Call} {w t : Nat} :
    (∃ key, .answer c.id (.error (.outOfRange key)) ∈ (s.wait limits c w t).2) ↔
      limits.timeout - (s.now - t) ≠ 0 ∧ durationLimit ≤ limits.span s.now w t := by
  simp only [wait, Limits.span, Limits.delay]
  split
  next late => simp [late, fail, finish]
  next early =>
    split
    next long => simp [early, long, finish]
    next short =>
      repeat' split
      all_goals simp [short, finish]

namespace History

variable {limits : Limits} {keys : Nat → Key.Pair} {now n id w t : Nat}
  {r : History limits keys now}

/-- Before a step a call got its session at `w`, and then its own request was accepted at `t`. -/
def MakesRequest (r : History limits keys now) (n id w t : Nat) : Prop :=
  ∃ a b csr, a < b ∧ b < n ∧ r.event a = .acquire id ∧ (r.state a).now = w ∧
    r.event b = .submitted id (.ok csr) ∧ (r.state b).now = t

theorem MakesRequest.succ (h : r.MakesRequest n id w t) : r.MakesRequest (n + 1) id w t := by
  obtain ⟨a, b, csr, hab, hbn, rest⟩ := h
  exact ⟨a, b, csr, hab, Nat.lt_succ_of_lt hbn, rest⟩

theorem takes_or_makes (r : History limits keys now) (n : Nat) : ∀ c ∈ (r.state n).calls,
    ∀ w csr t polls, (c.phase = .polling w ∨ ∃ wakeAt, c.phase = .sleeping w wakeAt) →
      ((r.state n).sessions c.session).state = .polling csr t polls →
      t ≤ w ∨ r.MakesRequest n c.id w t := by
  induction n with
  | zero =>
      rw [r.state_zero]
      exact fun c hc => absurd hc List.not_mem_nil
  | succ n ih =>
      intro d hd w csr t polls phase held
      cases (r.step n).comes (r.orderly n) hd with
      | started request event call =>
          subst call
          simp at phase
      | left mem event effects session =>
          have looping : d.phase ≠ .queued := by
            rcases phase with phase | ⟨_, phase⟩ <;> simp [phase]
          rw [session looping] at held
          exact (ih d mem w csr t polls phase held).imp_right .succ
      | @moved c m mem moves call state =>
          obtain ⟨hid, hsession, _⟩ := Move.call?_eq call
          rw [hsession, state, after_session] at held
          rw [hid]
          generalize he : r.event n = e at moves
          cases moves with
          | reuse | turnAway | overrun | pend | stop | withdraw | refused | unreachable | unusable
              | timeOut | abandoned
          | issue => cases call
          | renew | request =>
              cases call
              simp at phase
          | resume next pending =>
              cases call
              cases held
              obtain rfl : _ = w := by simpa using phase
              exact .inl (accepted_le pending)
          | accepted submitting =>
              cases call
              cases held
              obtain rfl : _ = w := by simpa using phase
              obtain ⟨a, ha, acquires, hw⟩ := r.began n c mem _ (by rw [submitting]; rfl)
              exact .inr ⟨a, n, _, ha, Nat.lt_succ_self n, acquires, hw, he, rfl⟩
          | sleep polling =>
              cases call
              obtain rfl : _ = w := by simpa using phase
              exact (ih c mem _ csr t polls (.inl polling) held).imp_right .succ
          | wake sleeping due pending =>
              cases call
              cases held
              obtain rfl : _ = w := by simpa using phase
              exact (ih c mem _ csr t _ (.inr ⟨_, sleeping⟩) pending).imp_right .succ
          | note =>
              cases call
              exact (ih c mem w csr t polls phase held).imp_right .succ

theorem Awaits.takes_or_makes (h : r.Awaits n id w t) : t ≤ w ∨ r.MakesRequest n id w t := by
  obtain ⟨c, hc, rfl, phase, csr, polls, held⟩ := h
  exact r.takes_or_makes n c hc w csr t polls (.inl phase) held

theorem Awaits.accepted_le (h : r.Awaits n id w t) : t ≤ (r.state n).now := by
  obtain ⟨c, _, _, _, csr, polls, held⟩ := h
  exact History.accepted_le held

theorem Awaits.outOfRange_iff (h : r.Awaits n id w t) (polled : r.event n = .polled id (.ok none)) :
    (∃ key, .answer id (.error (.outOfRange key)) ∈ r.effects n) ↔
      (r.state n).now < t + limits.timeout ∧ durationLimit ≤ limits.span (r.state n).now w t := by
  have accepted := h.accepted_le
  obtain ⟨c, hc, rfl, phase, csr, polls, held⟩ := h
  obtain ⟨key, stored⟩ := ((r.orderly n).stored c.session).of_polling held
  have step := r.step_eq n
  rw [polled] at step
  simp only [System.step, (r.orderly n).call?_eq hc, Option.bind_eq_bind, Option.bind_some,
    phase] at step
  have waits : r.effects n = ((r.state n).wait limits c w t).2 := by
    rw [← polled_none held stored, Option.some.inj step]
  rw [waits, overruns_iff]
  omega

theorem outOfRange_awaits {key : String} (h : .answer id (.error (.outOfRange key)) ∈ r.effects n) :
    r.event n = .polled id (.ok none) ∧ ∃ w t, r.Awaits n id w t := by
  obtain ⟨c, hc, rfl, ⟨session, moves⟩ | ⟨fault, failed, moves⟩⟩ := (r.step n).of_answer h
  · generalize he : r.event n = e at moves
    cases moves with
    | overrun phase held => exact ⟨rfl, _, _, c, hc, rfl, phase, _, _, held⟩
  · cases failed
    generalize r.event n = e at moves
    cases moves

/-- Before the deadline of its request a call waits for the next poll unless that makes its time no
duration. With settings that are accepted this does not happen to a call that takes a request up
again, nor to one whose submission takes less than a second. It happens only to a call that has made
its request itself, where the submission and the deadline together are no duration. -/
theorem durations_bounded {lookup : String → Option String} {settings : Settings}
    (accepted : Settings.ofLookup lookup = .ok settings) (r : History settings.limits keys now) :
    (∀ n id w t, r.Awaits n id w t → (t ≤ w ∨ r.MakesRequest n id w t) ∧
      (t < w + 1000 → (r.state n).now < t + settings.limits.timeout →
        settings.limits.span (r.state n).now w t < durationLimit) ∧
      (r.event n = .polled id (.ok none) →
        ((∃ key, .answer id (.error (.outOfRange key)) ∈ r.effects n) ↔
          (r.state n).now < t + settings.limits.timeout ∧
            durationLimit ≤ settings.limits.span (r.state n).now w t))) ∧
    ∀ n id key, .answer id (.error (.outOfRange key)) ∈ r.effects n →
      r.event n = .polled id (.ok none) ∧ ∃ w t, r.Awaits n id w t ∧ r.MakesRequest n id w t ∧
        w + 1000 ≤ t ∧ durationLimit ≤ t - w + settings.limits.timeout := by
  have short := Settings.timeout_add_le accepted
  refine ⟨fun n id w t awaits => ⟨awaits.takes_or_makes, fun prompt early => ?_,
    awaits.outOfRange_iff⟩, ?_⟩
  · have := Limits.span_le w awaits.accepted_le early
    omega
  · intro n id key answered
    obtain ⟨polled, w, t, awaits⟩ := outOfRange_awaits answered
    obtain ⟨early, long⟩ := (awaits.outOfRange_iff polled).1 ⟨key, answered⟩
    have := Limits.span_le w awaits.accepted_le early
    refine ⟨polled, w, t, awaits, awaits.takes_or_makes.resolve_left ?_, ?_, ?_⟩ <;> omega

def longest : Settings where
  limits := ⟨18446744073709551615000, 18446744073709551615000, 30000, 18446744073709551615000⟩

def longestLookup : String → Option String
  | "BOOTSTRAP_POLL_INTERVAL_SECS" | "BOOTSTRAP_TIMEOUT_SECS" | "BOOTSTRAP_SESSION_TTL_SECS" =>
    some "18446744073709551615"
  | _ => none

theorem longest_accepted : Settings.ofLookup longestLookup = .ok longest := by rfl

def overlong : History longest.limits (fun _ => ⟨"", [], fun _ => []⟩) 0 := ofEvents
  [.start ⟨"a", "a", ""⟩, .acquire 0, .advance 1000, .submitted 0 (.ok "csr"), .polled 0 (.ok none)]

theorem overlong_awaits : overlong.Awaits 4 0 0 1000 :=
  ⟨⟨0, ⟨"a", "a", ""⟩, 0, .polling 0, false⟩, .head _, rfl, rfl, "csr", 1, rfl⟩

/-- Settings are accepted with which a submission that takes a second makes a time no duration. -/
theorem exists_overrun :
    ∃ lookup settings, Settings.ofLookup lookup = .ok settings ∧
      ∃ (keys : Nat → Key.Pair) (r : History settings.limits keys 0) (n id w : Nat) (key : String),
        r.Awaits n id w (w + 1000) ∧ .answer id (.error (.outOfRange key)) ∈ r.effects n :=
  ⟨longestLookup, longest, longest_accepted, _, overlong, 4, 0, 0, "a", overlong_awaits, .head _⟩

end History

end Bootstrap

end HollowNode
