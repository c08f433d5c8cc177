import HollowNode.Proofs.Bootstrap.Provenance

namespace HollowNode.Bootstrap

def Phase.start? : Phase → Option Nat
  | queued => none
  | submitting start | polling start | sleeping start _ => some start

def Effect.polls (id : Nat) : Effect → Bool
  | poll call _ => call = id
  | submit .. | sleep .. | answer .. => false

theorem Effect.call_eq_of_polls {id : Nat} {f : Effect} (h : f.polls id = true) : f.call = id := by
  cases f with
  | poll other csr => simpa [polls, call] using h
  | submit | sleep | answer => cases h

namespace System

variable {limits : Limits} {keys : Nat → Key.Pair} {s s' : System} {c d : Call}
  {e : Event} {m : Move} {fs : List Effect} {id k w t : Nat}

/-- How many times a call has polled: `j` whole intervals passed between its polls, and after the
deadline it polls once more at most. -/
inductive Paced (limits : Limits) (s : System) (c : Call) (k : Nat) : Prop
  | before (phase : c.phase = .queued ∨ ∃ w, c.phase = .submitting w) (count : k = 0)
  | polling {w t polls j : Nat} {csr : String} (phase : c.phase = .polling w)
      (held : (s.sessions c.session).state = .polling csr t polls)
      (short : j * limits.pollInterval ≤ limits.pollWindow)
      (pace : k = j + 1 ∧ w + j * limits.pollInterval ≤ s.now ∨ k = j + 2 ∧
        t + limits.timeout ≤ s.now)
  | sleeping {w wakeAt t polls j : Nat} {csr : String} (phase : c.phase = .sleeping w wakeAt)
      (held : (s.sessions c.session).state = .polling csr t polls)
      (short : j * limits.pollInterval ≤ limits.pollWindow)
      (pace : k = j ∧ w + j * limits.pollInterval ≤ wakeAt ∨ k = j + 1 ∧
        t + limits.timeout ≤ wakeAt)

theorem Paced.le (h : Paced limits s c k) (positive : 0 < limits.pollInterval) :
    k ≤ limits.pollWindow / limits.pollInterval + 2 := by
  cases h with
  | before phase count => exact count ▸ Nat.zero_le _
  | polling phase held short pace | sleeping phase held short pace =>
      have := (Nat.le_div_iff_mul_le positive).2 short
      omega

theorem Paced.eq_zero (h : Paced limits s c k)
    (phase : c.phase = .queued ∨ ∃ w, c.phase = .submitting w) : k = 0 := by
  cases h with
  | before _ count => exact count
  | polling other | sleeping other => simp [other] at phase

theorem Paced.later (h : Paced limits s c k) (hnow : s.now ≤ s'.now)
    (session : c.phase ≠ .queued → s'.sessions c.session = s.sessions c.session) :
    Paced limits s' c k := by
  cases h with
  | before phase count => exact .before phase count
  | polling phase held short pace =>
      refine .polling phase
        ((congrArg Session.state (session (by simp [phase]))).trans held) short ?_
      omega
  | sleeping phase held short pace =>
      exact .sleeping phase
        ((congrArg Session.state (session (by simp [phase]))).trans held) short pace

theorem Paced.moved (h : Paced limits s c k) (moves : Moves limits s c e m)
    (hd : m.call? s c = some d) (started : ∀ w, c.phase.start? = some w → w ≤ s.now)
    (accepted : ∀ csr t polls, (s.sessions c.session).state = .polling csr t polls → t ≤ s.now) :
    Paced limits (s.after keys c m).1 d (k + (s.after keys c m).2.countP (·.polls d.id)) := by
  obtain ⟨hid, hsession, _⟩ := Move.call?_eq hd
  have hstate : ((s.after keys c m).1.sessions d.session).state = (m.session keys s c).state := by
    rw [hsession, after_session]
  cases moves with
  | reuse | turnAway | overrun | pend | stop | withdraw | refused | unreachable | unusable
      | timeOut | abandoned
  | issue => cases hd
  | renew next | request next =>
      cases hd
      have waits : c.phase = .queued := by simpa [isNext] using (Bool.and_eq_true_iff.1 next).1
      exact .before (.inr ⟨s.now, rfl⟩) (h.eq_zero (.inl waits))
  | resume next held =>
      cases hd
      have waits : c.phase = .queued := by simpa [isNext] using (Bool.and_eq_true_iff.1 next).1
      have hk := h.eq_zero (.inl waits)
      refine .polling rfl hstate (Nat.zero_mul _ ▸ Nat.zero_le _) (.inl ⟨?_, ?_⟩)
      · simp [after, Effect.polls, hk]
      · simp
  | @accepted start csr phase going =>
      cases hd
      have hk := h.eq_zero (.inr ⟨_, phase⟩)
      have hle := started start (by rw [phase]; rfl)
      refine .polling rfl hstate (Nat.zero_mul _ ▸ Nat.zero_le _) (.inl ⟨?_, ?_⟩)
      · simp [after, Effect.polls, hk]
      · simpa using hle
  | @sleep start csr t polls phase held going early short =>
      cases hd
      have hle := accepted csr t polls held
      cases h with
      | before other => simp [phase] at other
      | sleeping other => cases phase.symm.trans other
      | @polling w t' polls' j csr' other held' fits pace =>
          cases phase.symm.trans other
          cases held.symm.trans held'
          simp only [Limits.delay] at short
          rcases pace with ⟨hk, hpace⟩ | ⟨_, late⟩
          · by_cases whole : limits.pollInterval ≤ limits.timeout - (s.now - t)
            · have hmul :
                  (j + 1) * limits.pollInterval = j * limits.pollInterval + limits.pollInterval :=
                Nat.succ_mul _ _
              refine .sleeping (j := j + 1) rfl (hstate.trans held) ?_ (.inl ⟨?_, ?_⟩)
              · omega
              · simpa [after, Effect.polls] using hk
              · simp only [Limits.delay]
                omega
            · refine .sleeping rfl (hstate.trans held) fits (.inr ⟨?_, ?_⟩)
              · simpa [after, Effect.polls] using hk
              · simp only [Limits.delay]
                omega
          · omega
  | wake phase due held =>
      cases hd
      cases h with
      | before other => simp [phase] at other
      | polling other => cases phase.symm.trans other
      | sleeping other held' fits pace =>
          cases phase.symm.trans other
          cases held.symm.trans held'
          refine .polling rfl hstate fits ?_
          simp only [after, Effect.polls, List.countP_singleton, decide_true, if_true]
          simp only [setPhase, setSession]
          omega
  | note =>
      cases hd
      have hzero : k + (s.after keys c .note).2.countP (·.polls c.id) = k := rfl
      rw [hzero]
      cases h with
      | before phase count => exact .before phase count
      | polling phase held short pace => exact .polling phase held short pace
      | sleeping phase held short pace => exact .sleeping phase held short pace

/-- A call that polls has its session since `w`, and the request of the session was accepted at
`t`. -/
structure Loops (s : System) (id i w t : Nat) : Prop where
  made : id < s.callsMade
  call : ∀ c ∈ s.calls, c.id = id →
    c.session = i ∧ (c.phase = .polling w ∨ ∃ wakeAt, c.phase = .sleeping w wakeAt) ∧
    ∃ csr polls, (s.sessions i).state = .polling csr t polls

theorem Loops.next {i : Nat} (h : s.Loops id i w t) (hs : s.Orderly)
    (step : Step limits keys s e s' fs) : s'.Loops id i w t where
  made := Nat.lt_of_lt_of_le h.made step.callsMade_le
  call := by
    intro d hd hid
    cases step.comes hs hd with
    | started request event call =>
        subst call
        exact absurd hid (Nat.ne_of_gt h.made)
    | left mem event effects session =>
        obtain ⟨rfl, phase, held⟩ := h.call d mem hid
        have hq : d.phase ≠ .queued := by
          rcases phase with phase | ⟨_, phase⟩ <;> simp [phase]
        exact ⟨rfl, phase, by rwa [session hq]⟩
    | @moved c m mem moves call state =>
        obtain ⟨hdc, hsession, _⟩ := Move.call?_eq call
        obtain ⟨rfl, phase, csr, polls, held⟩ := h.call c mem (hdc ▸ hid)
        rw [state, after_session]
        refine ⟨hsession, ?_⟩
        cases moves with
        | reuse | turnAway | overrun | pend | stop | withdraw | refused | unreachable
            | unusable | timeOut
        | abandoned | issue => cases call
        | renew next | request next | resume next =>
            have waits : c.phase = .queued := by
              simpa [isNext] using (Bool.and_eq_true_iff.1 next).1
            simp [waits] at phase
        | accepted other => simp [other] at phase
        | sleep other held' =>
            cases call
            cases held.symm.trans held'
            obtain rfl : w = _ := by simpa [other, eq_comm] using phase
            exact ⟨.inr ⟨_, rfl⟩, _, _, held⟩
        | wake other due held' =>
            cases call
            cases held.symm.trans held'
            obtain rfl : _ = w := by simpa [other] using phase
            exact ⟨.inl rfl, _, _, rfl⟩
        | note =>
            cases call
            exact ⟨phase, csr, polls, held⟩

end System

open HollowNode.Bootstrap.System

namespace History

variable {limits : Limits} {keys : Nat → Key.Pair} {now n id i w t : Nat}
  {r : History limits keys now} {c : Call}

theorem began (r : History limits keys now) (n : Nat) :
    ∀ c ∈ (r.state n).calls, ∀ w, c.phase.start? = some w → ∃ a < n, r.event a = .acquire c.id ∧
    (r.state a).now = w := by
  induction n with
  | zero =>
      rw [r.state_zero]
      exact fun c hc => absurd hc List.not_mem_nil
  | succ n ih =>
      intro d hd w hw
      cases (r.step n).comes (r.orderly n) hd with
      | started request event call =>
          subst call
          cases hw
      | left mem =>
          obtain ⟨a, ha, rest⟩ := ih d mem w hw
          exact ⟨a, Nat.lt_succ_of_lt ha, rest⟩
      | @moved c m mem moves call state =>
          rw [(Move.call?_eq call).1]
          have earlier (h : c.phase.start? = some w) : ∃ a < n + 1, r.event a = .acquire c.id ∧
              (r.state a).now = w := by
            obtain ⟨a, ha, rest⟩ := ih c mem w h
            exact ⟨a, Nat.lt_succ_of_lt ha, rest⟩
          generalize he : r.event n = e at moves
          cases moves with
          | reuse | turnAway | overrun | pend | stop | withdraw | refused | unreachable
              | unusable | timeOut
          | abandoned | issue => cases call
          | renew | request | resume =>
              cases call
              cases hw
              exact ⟨n, Nat.lt_succ_self n, he, rfl⟩
          | accepted phase | sleep phase | wake phase =>
              cases call
              exact earlier (by rw [phase]; exact hw)
          | note =>
              cases call
              exact earlier hw

theorem start_le (hc : c ∈ (r.state n).calls) (hw : c.phase.start? = some w) :
    w ≤ (r.state n).now := by
  obtain ⟨a, ha, _, rfl⟩ := r.began n c hc w hw
  exact r.now_mono (Nat.le_of_lt ha)

theorem accepted_le {csr : String} {polls : Nat}
    (held : ((r.state n).sessions i).state = .polling csr t polls) : t ≤ (r.state n).now := by
  obtain ⟨q, rfl, _⟩ := (r.traced n i).polling csr t polls held
  exact r.now_mono (Nat.le_of_lt q.till)

def polls (r : History limits keys now) (id : Nat) : Nat → Nat
  | 0 => 0
  | n + 1 => r.polls id n + (r.effects n).countP (·.polls id)

theorem polls_succ (h : ∀ f ∈ r.effects n, f.call ≠ id) : r.polls id (n + 1) = r.polls id n := by
  have hzero : (r.effects n).countP (·.polls id) = 0 :=
    List.countP_eq_zero.2 fun f hf hpolls => h f hf (Effect.call_eq_of_polls hpolls)
  rw [polls, hzero, Nat.add_zero]

theorem polls_of_made_le (r : History limits keys now) (n : Nat) (h : (r.state n).callsMade ≤ id) :
    r.polls id n = 0 := by
  induction n with
  | zero => rfl
  | succ n ih =>
      have hle := Nat.le_trans (r.step n).callsMade_le h
      rw [polls_succ, ih hle]
      intro f hf hid
      obtain ⟨c, hc, hfc⟩ := (r.step n).effects_call f hf
      have := (r.orderly n).numbered c hc
      omega

theorem paced (r : History limits keys now) (n : Nat) :
    ∀ c ∈ (r.state n).calls, Paced limits (r.state n) c (r.polls c.id n) := by
  induction n with
  | zero =>
      rw [r.state_zero]
      exact fun c hc => absurd hc List.not_mem_nil
  | succ n ih =>
      intro d hd
      cases (r.step n).comes (r.orderly n) hd with
      | started request event call effects =>
          refine .before (.inl (by rw [call])) ?_
          rw [polls_succ (by simp [effects])]
          exact r.polls_of_made_le n (by simp [call])
      | left mem event effects session =>
          rw [polls_succ effects]
          exact (ih d mem).later (r.now_le_succ n) session
      | @moved c m mem moves call state effects =>
          rw [polls, state, effects, (Move.call?_eq call).1]
          have hd : Paced limits ((r.state n).after keys c m).1 d
              (r.polls c.id n + ((r.state n).after keys c m).2.countP (·.polls d.id)) :=
            (ih c mem).moved moves call (fun w hw => start_le mem hw) fun csr t polls held =>
              accepted_le held
          rwa [(Move.call?_eq call).1] at hd

theorem mem_of_polls (h : (r.effects n).countP (·.polls id) ≠ 0) :
    ∃ c ∈ (r.state (n + 1)).calls, c.id = id := by
  obtain ⟨f, hf, hpolls⟩ := List.countP_pos_iff.1 (Nat.pos_of_ne_zero h)
  obtain ⟨c, hc, hfc⟩ := (r.step n).effects_call f hf
  have hid : c.id = id := hfc.symm.trans (Effect.call_eq_of_polls hpolls)
  rw [← hid]
  refine (r.step n).stays (r.orderly n) hc fun answer hanswer => ?_
  obtain ⟨_, _, _, _, _, single, _⟩ := (r.step n).of_effect hanswer
  rw [single, List.mem_singleton] at hf
  subst hf
  cases hpolls

theorem polls_le (r : History limits keys now) (positive : 0 < limits.pollInterval) (id n : Nat) :
    r.polls id n ≤ limits.pollWindow / limits.pollInterval + 2 := by
  induction n with
  | zero => exact Nat.zero_le _
  | succ n ih =>
      by_cases h : (r.effects n).countP (·.polls id) = 0
      · rwa [polls, h]
      · obtain ⟨c, hc, rfl⟩ := mem_of_polls h
        exact (r.paced (n + 1) c hc).le positive

/-- At a step a call waits for the answer to a poll. It has its session since `w`, and the request
was accepted at `t`. -/
def Awaits (r : History limits keys now) (n id w t : Nat) : Prop :=
  ∃ c ∈ (r.state n).calls, c.id = id ∧ c.phase = .polling w ∧
    ∃ csr polls, ((r.state n).sessions c.session).state = .polling csr t polls

theorem Awaits.loops (h : r.Awaits n id w t) : ∃ i, ∀ m, n ≤ m → (r.state m).Loops id i w t := by
  obtain ⟨c, hc, rfl, phase, held⟩ := h
  refine ⟨c.session, fun m hnm => ?_⟩
  refine r.keeps (P := fun s => s.Loops c.id c.session w t) hnm ⟨(r.orderly n).numbered c hc, ?_⟩
    fun l _ h => h.next (r.orderly l) (r.step l)
  intro d hd hid
  obtain rfl := (r.orderly n).eq_of_id hd hc hid
  exact ⟨rfl, .inl phase, held⟩

theorem Awaits.unique {m w' t' : Nat} (h : r.Awaits n id w t) (h' : r.Awaits m id w' t') :
    w = w' ∧ t = t' := by
  have later {n m w t w' t' : Nat} (h : r.Awaits n id w t) (h' : r.Awaits m id w' t')
      (hnm : n ≤ m) : w = w' ∧ t = t' := by
    obtain ⟨i, hloops⟩ := h.loops
    obtain ⟨c, hc, hid, phase', csr', polls', held'⟩ := h'
    obtain ⟨rfl, phase, csr, polls, held⟩ := (hloops m hnm).call c hc hid
    cases held.symm.trans held'
    exact ⟨by simpa [phase', eq_comm] using phase, rfl⟩
  rcases Nat.le_total n m with hnm | hnm
  · exact later h h' hnm
  · obtain ⟨hw, ht⟩ := later h' h hnm
    exact ⟨hw.symm, ht.symm⟩

theorem sleep_bounds {wakeAt : Nat} (h : .sleep id wakeAt ∈ r.effects n) :
    ∃ w t, r.Awaits n id w t ∧ wakeAt ≤ w + limits.pollWindow ∧ wakeAt ≤ t + limits.timeout := by
  obtain ⟨c, hc, m, moves, _, _, single⟩ := (r.step n).of_effect h
  cases m with
  | leave | fail | submit | note => cases single
  | go =>
      cases single
      generalize r.event n = e at moves
      cases moves with
      | @sleep w csr t polls phase held going early short =>
          have hw : w ≤ (r.state n).now := start_le hc (by rw [phase]; rfl)
          have ht : t ≤ (r.state n).now := accepted_le held
          simp only [Limits.delay] at short ⊢
          refine ⟨w, t, ⟨c, hc, rfl, phase, csr, polls, held⟩, ?_, ?_⟩ <;> omega

theorem timeout_bounds {key : String} {seconds : Nat}
    (h : .answer id (.error (.timeout key seconds)) ∈ r.effects n) : ∃ w t, r.Awaits n id w t ∧
      t + limits.timeout ≤ (r.state n).now ∧ r.event n = .polled id (.ok none) := by
  obtain ⟨c, hc, rfl, ⟨session, moves⟩ | ⟨fault, failed, moves⟩⟩ := (r.step n).of_answer h
  · generalize r.event n = e at moves
    cases moves
  · cases failed
    generalize he : r.event n = e at moves
    cases moves with
    | @timeOut w csr t polls phase held late =>
        have ht : t ≤ (r.state n).now := accepted_le held
        exact ⟨w, t, ⟨c, hc, rfl, phase, csr, polls, held⟩, by omega, rfl⟩

theorem pending_bounds {delay : Nat} (positive : 0 < limits.pollInterval)
    (h : .answer id (.ok (.pending delay)) ∈ r.effects n) : ∃ w t, r.Awaits n id w t ∧
      0 < delay ∧ delay ≤ limits.pollInterval ∧ (r.state n).now + delay ≤ t + limits.timeout ∧
      limits.pollWindow < (r.state n).now - w + delay := by
  obtain ⟨c, hc, rfl, ⟨session, moves⟩ | ⟨fault, failed, _⟩⟩ := (r.step n).of_answer h
  · generalize r.event n = e at moves
    cases moves with
    | @pend w csr t polls phase held early long =>
        have ht : t ≤ (r.state n).now := accepted_le held
        refine ⟨w, t, ⟨c, hc, rfl, phase, csr, polls, held⟩, ?_, ?_, ?_, long⟩ <;>
          simp only [Limits.delay] <;> omega
  · cases failed

/-- The API server answers every poll of a call some time, and the call does not sleep for ever. -/
structure Served (r : History limits keys now) (id : Nat) : Prop where
  answered : ∀ n, ∀ c ∈ (r.state n).calls, c.id = id → ∀ w, c.phase = .polling w →
    ∃ m ≥ n, ∃ answer, r.event m = .polled id answer
  woken : ∀ n, ∀ c ∈ (r.state n).calls, c.id = id → ∀ w wakeAt, c.phase = .sleeping w wakeAt →
    ∃ m ≥ n, r.event m = .wake id ∨ r.event m = .cancel id

theorem polls_mono (r : History limits keys now) (id : Nat) {n m : Nat} (hnm : n ≤ m) :
    r.polls id n ≤ r.polls id m := by
  induction hnm with
  | refl => exact Nat.le_refl _
  | step _ ih => exact Nat.le_trans ih (Nat.le_add_right _ _)

structure Unanswered (r : History limits keys now) (n id : Nat) : Prop where
  present : ∃ i w t, ∀ m ≥ n, (r.state m).Loops id i w t ∧ ∃ c ∈ (r.state m).calls, c.id = id
  silent : ∀ m ≥ n, ∀ answer, .answer id answer ∉ r.effects m

theorem Awaits.unanswered (h : r.Awaits n id w t)
    (silent : ∀ m ≥ n, ∀ answer, .answer id answer ∉ r.effects m) : r.Unanswered n id := by
  obtain ⟨i, hloops⟩ := h.loops
  refine ⟨⟨i, w, t, fun m hnm => ⟨hloops m hnm, ?_⟩⟩, silent⟩
  induction hnm with
  | refl =>
      obtain ⟨c, hc, hid, _⟩ := h
      exact ⟨c, hc, hid⟩
  | @step m hnm ih =>
      obtain ⟨c, hc, rfl⟩ := ih
      exact (r.step m).stays (r.orderly m) hc (silent m hnm)

theorem Unanswered.moves (h : r.Unanswered n id) {m : Nat} (hnm : n ≤ m)
    (he : (r.event m).call? = some id) :
    ∃ c ∈ (r.state m).calls, c.id = id ∧ ∃ move d, Moves limits (r.state m) c (r.event m) move ∧
      move.call? (r.state m) c = some d ∧ d ∈ (r.state (m + 1)).calls := by
  obtain ⟨c, hc, rfl, move, moves, hstate, heffects⟩ := (r.step m).of_call he
  have goes {d : Call} (hd : move.call? (r.state m) c = some d) : d ∈ (r.state (m + 1)).calls := by
    rw [hstate]
    exact ((r.orderly m).mem_after hc).2 (.inr hd)
  refine ⟨c, hc, rfl, move, ?_⟩
  cases move with
  | leave session answer =>
      exact absurd (heffects ▸ List.mem_singleton_self _) (h.silent m hnm answer)
  | fail fault =>
      exact absurd (heffects ▸ List.mem_singleton_self _) (h.silent m hnm (.error fault))
  | submit | go | note => exact ⟨_, moves, rfl, goes rfl⟩

theorem Unanswered.sleeps (h : r.Unanswered n id) (served : r.Served id) {m : Nat} (hnm : n ≤ m) :
    ∃ a ≥ m, ∃ c ∈ (r.state a).calls, c.id = id ∧ ∃ w wakeAt, c.phase = .sleeping w wakeAt := by
  obtain ⟨i, w, t, present⟩ := h.present
  obtain ⟨loops, c, hc, hid⟩ := present m hnm
  rcases (loops.call c hc hid).2.1 with phase | ⟨wakeAt, phase⟩
  · obtain ⟨a, hma, answer, he⟩ := served.answered m c hc hid w phase
    obtain ⟨d, hd, rfl, move, d', moves, hcall, hd'⟩ :=
      h.moves (Nat.le_trans hnm hma) (by rw [he]; rfl)
    refine ⟨a + 1, Nat.le_succ_of_le hma, d', hd', (Move.call?_eq hcall).1, ?_⟩
    rw [he] at moves
    cases moves with
    | unreachable | issue | unusable | timeOut | overrun | pend | stop => cases hcall
    | sleep =>
        cases hcall
        exact ⟨_, _, rfl⟩
  · exact ⟨m, Nat.le_refl m, c, hc, hid, w, wakeAt, phase⟩

theorem Unanswered.polls_lt (h : r.Unanswered n id) (served : r.Served id) {m : Nat} (hnm : n ≤ m) :
    ∃ a ≥ m, r.polls id m < r.polls id a := by
  obtain ⟨i, w, t, present⟩ := h.present
  let Sleeps (s : System) : Prop := ∃ c ∈ s.calls, c.id = id ∧
    ∃ w wakeAt, c.phase = .sleeping w wakeAt
  obtain ⟨a, hma, c, hc, hid, w', wakeAt, phase⟩ := h.sleeps served hnm
  obtain ⟨b, hab, he⟩ := served.woken a c hc hid w' wakeAt phase
  have hnb : n ≤ b := Nat.le_trans hnm (Nat.le_trans hma hab)
  have awake : ¬Sleeps (r.state (b + 1)) := by
    rintro ⟨d, hd, hdid, u, v, hsleep⟩
    obtain ⟨c', hc', hcid, move, d', moves, hcall, hd'⟩ :=
      h.moves hnb (by rcases he with he | he <;> rw [he] <;> rfl)
    obtain rfl := (r.orderly (b + 1)).eq_of_id hd hd' (by rw [hdid, (Move.call?_eq hcall).1, hcid])
    rcases he with he | he
    · rw [he] at moves
      cases moves with
      | wake =>
          cases hcall
          cases hsleep
    · rw [he] at moves
      cases moves with
      | withdraw => cases hcall
      | note busy =>
          cases hcall
          rw [hsleep] at busy
          exact busy
  obtain ⟨l, hal, hlb, ⟨c₁, hc₁, hid₁, u, v, phase₁⟩, woken⟩ :=
    r.exists_last (P := Sleeps) (Nat.le_succ_of_le hab) ⟨c, hc, hid, w', wakeAt, phase⟩ awake
  have hnl : n ≤ l := Nat.le_trans hnm (Nat.le_trans hma hal)
  obtain ⟨_, d, hd, hdid⟩ := present (l + 1) (Nat.le_succ_of_le hnl)
  refine ⟨l + 1, Nat.le_succ_of_le (Nat.le_trans hma hal), ?_⟩
  have hmono := r.polls_mono id (Nat.le_trans hma hal)
  cases (r.step l).comes (r.orderly l) hd with
  | started request event call =>
      have := (present l hnl).1.made
      rw [call] at hdid
      exact absurd hdid (Nat.ne_of_gt this)
  | left mem =>
      obtain rfl := (r.orderly l).eq_of_id mem hc₁ (hdid.trans hid₁.symm)
      exact absurd ⟨d, hd, hdid, u, v, phase₁⟩ woken
  | @moved c₂ move mem moves call state effects =>
      obtain rfl := (r.orderly l).eq_of_id mem hc₁ (by rw [← (Move.call?_eq call).1, hdid, hid₁])
      generalize r.event l = e at moves
      cases moves with
      | reuse | turnAway | overrun | pend | stop | withdraw | refused | unreachable
          | unusable | timeOut
      | abandoned | issue => cases call
      | renew next | request next | resume next => simp [isNext, phase₁] at next
      | accepted other | sleep other => cases phase₁.symm.trans other
      | note busy =>
          rw [phase₁] at busy
          exact busy.elim
      | wake =>
          have hone : (r.effects l).countP (·.polls id) = 1 := by
            simp [effects, after, Effect.polls, hid₁]
          rw [polls, hone]
          omega

theorem Awaits.ends (h : r.Awaits n id w t) (positive : 0 < limits.pollInterval)
    (served : r.Served id) : ∃ m ≥ n, ∃ answer, .answer id answer ∈ r.effects m := by
  refine Classical.byContradiction fun never => ?_
  have unanswered : r.Unanswered n id := h.unanswered fun m hnm answer hanswer =>
    never ⟨m, hnm, answer, hanswer⟩
  have grows (k : Nat) : ∃ m ≥ n, k ≤ r.polls id m := by
    induction k with
    | zero => exact ⟨n, Nat.le_refl n, Nat.zero_le _⟩
    | succ k ih =>
        obtain ⟨m, hnm, hk⟩ := ih
        obtain ⟨a, hma, hlt⟩ := unanswered.polls_lt served hnm
        exact ⟨a, Nat.le_trans hnm hma, Nat.lt_of_le_of_lt hk hlt⟩
  obtain ⟨m, _, hm⟩ := grows (limits.pollWindow / limits.pollInterval + 3)
  have := r.polls_le positive id m
  omega

/-- A call that polls, with its session since `w` and its request accepted at `t`, ends if it is
served. It does not sleep beyond the end of its window or the deadline, it polls no more often than
the window has intervals and twice more, it times out only after the deadline, when a poll brought
nothing, and where it is to come back it is so before the deadline, after one interval at most and
because the next poll would be out of its window. -/
theorem bounded_polling (r : History limits keys now) (n id w t : Nat)
    (positive : 0 < limits.pollInterval) (served : r.Served id) (awaits : r.Awaits n id w t) :
    ((∃ a < n, r.event a = .acquire id ∧ (r.state a).now = w) ∧
      ∃ a < n, ∃ caller csr, r.event a = .submitted caller (.ok csr) ∧ (r.state a).now = t) ∧
    (∃ m ≥ n, ∃ answer, .answer id answer ∈ r.effects m) ∧
    (∀ m wakeAt, .sleep id wakeAt ∈ r.effects m →
      wakeAt ≤ min (w + limits.pollWindow) (t + limits.timeout)) ∧
    (∀ m, r.polls id m ≤ limits.pollWindow / limits.pollInterval + 2) ∧
    (∀ m key seconds, .answer id (.error (.timeout key seconds)) ∈ r.effects m →
      t + limits.timeout ≤ (r.state m).now ∧ r.event m = .polled id (.ok none)) ∧
    ∀ m delay, .answer id (.ok (.pending delay)) ∈ r.effects m →
      0 < delay ∧ delay ≤ limits.pollInterval ∧ (r.state m).now + delay ≤ t + limits.timeout ∧
      limits.pollWindow < (r.state m).now - w + delay := by
  refine ⟨?_, awaits.ends positive served, fun m wakeAt h => ?_, r.polls_le positive id,
    fun m key seconds h => ?_, fun m delay h => ?_⟩
  · obtain ⟨c, hc, rfl, phase, csr, polls, held⟩ := awaits
    obtain ⟨q, hnow, _⟩ := (r.traced n c.session).polling csr t polls held
    exact ⟨r.began n c hc w (by rw [phase]; rfl), q.accepted, q.till, q.caller.id, csr,
      q.accepts, hnow⟩
  · obtain ⟨w', t', awaits', hwindow, hdeadline⟩ := sleep_bounds h
    obtain ⟨rfl, rfl⟩ := awaits.unique awaits'
    exact Nat.le_min.2 ⟨hwindow, hdeadline⟩
  · obtain ⟨w', t', awaits', late⟩ := timeout_bounds h
    obtain ⟨rfl, rfl⟩ := awaits.unique awaits'
    exact late
  · obtain ⟨w', t', awaits', bounds⟩ := pending_bounds positive h
    obtain ⟨rfl, rfl⟩ := awaits.unique awaits'
    exact bounds

/-- A call polls, sleeps for a second and polls again, and is told then that its request was
denied. -/
def denial : History {} (fun _ => ⟨"", [], fun _ => []⟩) 0 := ofEvents
  [.start ⟨"a", "a", ""⟩, .acquire 0, .submitted 0 (.ok "csr"), .polled 0 (.ok none),
      .advance 1000, .wake 0, .polled 0 (.error (.denied "no"))]

theorem denial_served : denial.Served 0 := by
  have ended (n : Nat) (hn : 7 ≤ n) : (denial.state n).calls = [] :=
    congrArg System.calls (Run.state_ofEvents _ (fun _ => rfl) _ hn)
  have last : (denial.state 6).calls = [⟨0, ⟨"a", "a", ""⟩, 0, .polling 0, false⟩] := rfl
  refine ⟨fun n c hc _ w phase => ?_, fun n c hc _ w wakeAt phase => ?_⟩
  · rcases Nat.lt_or_ge n 7 with hn | hn
    · exact ⟨6, Nat.le_of_lt_succ hn, _, rfl⟩
    · simp [ended n hn] at hc
  · rcases Nat.lt_or_ge n 6 with hn | hn
    · exact ⟨5, Nat.le_of_lt_succ hn, .inl rfl⟩
    · rcases Nat.eq_or_lt_of_le hn with rfl | hn
      · rw [last, List.mem_singleton] at hc
        subst hc
        cases phase
      · simp [ended n hn] at hc

theorem denial_bounded :
    denial.Served 0 ∧ denial.Awaits 3 0 0 0 ∧
    (∃ m ≥ 3, ∃ answer, .answer 0 answer ∈ denial.effects m) ∧
      ∀ m, denial.polls 0 m ≤ 32 := by
  have awaits : denial.Awaits 3 0 0 0 :=
    ⟨⟨0, ⟨"a", "a", ""⟩, 0, .polling 0, false⟩, .head _, rfl, rfl, "csr", 1, rfl⟩
  obtain ⟨_, ends, _, count, _⟩ := bounded_polling denial 3 0 0 0 (by decide) denial_served awaits
  exact ⟨denial_served, awaits, ends, count⟩

end History

end HollowNode.Bootstrap
