import HollowNode.Proofs.Bootstrap.Registry
import HollowNode.Proofs.Bootstrap.Resuming
import Mathlib.Data.Nat.Find

namespace HollowNode.Bootstrap

/-- Whether the session of a call is over when the call ends with a fault. -/
def Fault.endsSession : Fault → Bool
  | .timeout .. | .failed .. => true
  | .cancelled _ | .outOfRange _ => false

/-- Whether a call that ends with an answer leaves its request to the calls after it. -/
def Answer.leavesRequest : Answer → Bool
  | .ok (.pending _) => true
  | .ok (.issued _) => false
  | .error fault => !fault.endsSession

namespace System

variable {limits : Limits} {keys : Nat → Key.Pair} {s s' : System} {c d : Call}
  {e : Event} {m : Move} {fs : List Effect} {i k : Nat} {answer : Answer} {fault : Fault}
  {session : Session}

theorem Step.answers (step : Step limits keys s e s' fs) (hs : s.Orderly) (hc : c ∈ s.calls)
    (h : .answer c.id answer ∈ fs) :
    (∃ session, Moves limits s c e (.leave session answer) ∧
      s' = (s.after keys c (.leave session answer)).1) ∨ ∃ fault, answer = .error fault ∧
      Moves limits s c e (.fail fault) ∧ s' = (s.after keys c (.fail fault)).1 := by
  obtain ⟨b, hb, m, moves, hstate, _, single⟩ := step.of_effect h
  have mem : .answer c.id answer ∈ (s.after keys b m).2 := single ▸ List.mem_singleton_self _
  have hid : c.id = b.id := moves.effects_call _ mem
  obtain rfl := hs.eq_of_id hc hb hid
  cases m with
  | leave session other =>
      cases single
      exact .inl ⟨session, moves, hstate⟩
  | fail fault =>
      cases single
      exact .inr ⟨fault, rfl, moves, hstate⟩
  | submit | note => cases single
  | go =>
      cases single
      cases moves

theorem Moves.issued {identity : ClientIdentity}
    (moves : Moves limits s c e (.leave session (.ok (.issued identity)))) :
    session.state = .issued identity := by
  cases moves with
  | reuse next held => exact held
  | issue => rfl

theorem Moves.leave_spares (moves : Moves limits s c e (.leave session (.error fault)))
    (held : c.phase ≠ .queued) : fault.endsSession = false := by
  cases moves with
  | turnAway next =>
      have waits : c.phase = .queued := by simpa [isNext] using (Bool.and_eq_true_iff.1 next).1
      exact absurd waits held
  | abandoned | overrun | stop | withdraw => rfl

theorem Moves.fail_ends (moves : Moves limits s c e (.fail fault)) : fault.endsSession = true := by
  cases moves with
  | refused | unreachable | unusable | timeOut => rfl

theorem Moves.leave_request (moves : Moves limits s c e (.leave session answer))
    (held : c.phase ≠ .queued) (leaves : answer.leavesRequest = true) :
    (∃ csr, e = .submitted c.id (.ok csr) ∧ (∃ w, c.phase = .submitting w) ∧
      session.state = .polling csr s.now 0) ∨ session = s.sessions c.session ∧
      ((∃ w, c.phase = .polling w) ∨ ∃ w wakeAt, c.phase = .sleeping w wakeAt) ∧
        ∀ answer, e ≠ .submitted c.id answer := by
  cases moves with
  | reuse | issue | turnAway => cases leaves
  | abandoned phase => exact .inl ⟨_, rfl, ⟨_, phase⟩, rfl⟩
  | overrun phase | pend phase | stop phase => exact .inr ⟨rfl, .inl ⟨_, phase⟩, nofun⟩
  | withdraw idle =>
      refine .inr ⟨rfl, .inr ?_, nofun⟩
      cases phase : c.phase with
      | queued => exact absurd phase held
      | submitting | polling =>
          rw [phase] at idle
          exact absurd trivial idle
      | sleeping w wakeAt => exact ⟨w, wakeAt, rfl⟩

theorem Moves.session_of_issued {identity : ClientIdentity} (keys : Nat → Key.Pair) (hs : s.Orderly)
    (hc : c ∈ s.calls) (moves : Moves limits s c e m)
    (held : (s.sessions c.session).state = .issued identity)
    (alive : identity.outlives s.now = true) : m.session keys s c = s.sessions c.session := by
  have fits := hs.fits c hc
  rw [held] at fits
  cases moves with
  | turnAway next h | request next h | resume next h => cases held.symm.trans h
  | renew next h dead =>
      cases held.symm.trans h
      cases alive.symm.trans dead
  | reuse | withdraw | note | overrun | pend | stop | sleep => rfl
  | refused phase | accepted phase | abandoned phase => rw [phase] at fits; cases fits
  | unreachable phase | issue phase | unusable phase | timeOut phase | wake phase =>
      rw [phase] at fits
      obtain ⟨_, _, _, h⟩ := fits
      cases h

theorem Step.sessions_of_issued {identity : ClientIdentity} (step : Step limits keys s e s' fs)
    (hs : s.Orderly) (held : (s.sessions i).state = .issued identity)
    (alive : identity.outlives s.now = true) : s'.sessions i = s.sessions i := by
  cases step with
  | start request => rw [start_sessions]
  | release | advance => rfl
  | @move c e m mem moves =>
      by_cases hi : i = c.session
      · subst hi
        rw [after_session]
        exact moves.session_of_issued keys hs mem held alive
      · exact after_sessions_of_ne hi

theorem Orderly.free_after (hs : s.Orderly) (hc : c ∈ s.calls) (held : c.phase ≠ .queued)
    (ends : m.call? s c = none) : (s.after keys c m).1.Free c.session := by
  intro d hd hds
  rcases (hs.mem_after hc).1 hd with ⟨hd, hne⟩ | hd
  · by_cases hq : d.phase = .queued
    · exact hq
    · exact absurd (congrArg Call.id (hs.alone hd hc hds hq held)) hne
  · cases ends.symm.trans hd

theorem Orderly.free_of_failed (hs : s.Orderly) {reason : String}
    (held : (s.sessions i).state = .failed reason) : s.Free i := by
  rintro d hd rfl
  exact Classical.byContradiction fun hq => hs.not_failed hd hq ⟨reason, held⟩

theorem Free.next (free : s.Free i) (hs : s.Orderly) (step : Step limits keys s e s' fs)
    (left : ∀ d ∈ s.calls, d.session = i → e ≠ .acquire d.id) :
    s'.Free i ∧ s'.sessions i = s.sessions i := by
  cases step with
  | start request =>
      refine ⟨fun d hd hds => ?_, by rw [start_sessions]⟩
      rcases mem_start.1 hd with hd | rfl
      · exact free d hd hds
      · rfl
  | release | advance => exact ⟨free, rfl⟩
  | @move c e m mem moves =>
      -- A queued call can only get the session, which it does not, or be cancelled.
      have others {d : Call} (hd : d ∈ s.calls) (hds : d.session = i) :
        d.phase = .queued := free d hd hds
      by_cases hi : c.session = i
      · have waits := free c mem hi
        cases moves with
        | reuse | renew | request | turnAway | resume => exact absurd rfl (left c mem hi)
        | refused phase | accepted phase | abandoned phase | unreachable phase | issue phase
            | unusable phase
        | timeOut phase | overrun phase | pend phase | stop phase | sleep phase | wake phase =>
            cases waits.symm.trans phase
        | withdraw =>
            refine ⟨fun d hd hds => ?_, hi ▸ after_session⟩
            rcases (hs.mem_after mem).1 hd with ⟨hd, _⟩ | hd
            · exact others hd hds
            · cases hd
        | note busy => exact absurd waits busy.ne_queued
      · refine ⟨fun d hd hds => ?_, after_sessions_of_ne (Ne.symm hi)⟩
        rcases (hs.mem_after mem).1 hd with ⟨hd, _⟩ | hd
        · exact others hd hds
        · exact absurd ((Move.call?_eq hd).2.1.symm.trans hds) hi

theorem Step.waits (step : Step limits keys s e s' fs) (hs : s.Orderly) (hd : d ∈ s.calls)
    (waits : d.phase = .queued) (left : e ≠ .acquire d.id) (kept : e ≠ .cancel d.id) :
    d ∈ s'.calls := by
  cases step with
  | start request => exact mem_start.2 (.inl hd)
  | release | advance => exact hd
  | @move c e m mem moves =>
      refine (hs.mem_after mem).2 (.inl ⟨hd, fun hid => ?_⟩)
      obtain rfl := hs.eq_of_id hd mem hid
      cases moves with
      | reuse | renew | request | turnAway | resume => exact left rfl
      | refused phase | accepted phase | abandoned phase | unreachable phase | issue phase
          | unusable phase
      | timeOut phase | overrun phase | pend phase | stop phase | sleep phase | wake phase =>
          cases waits.symm.trans phase
      | withdraw | note => exact kept rfl

theorem Orderly.isNext_of_least (hs : s.Orderly) (hd : d ∈ s.calls) (waits : d.phase = .queued)
    (least : ∀ c ∈ s.calls, c.session = d.session → d.id ≤ c.id) : s.isNext d = true := by
  simp only [isNext, waits, decide_true, Bool.true_and, Option.any_eq_true, decide_eq_true_eq]
  cases hf : s.calls.find? (·.session = d.session) with
  | none => simpa using List.find?_eq_none.1 hf d hd
  | some f =>
      refine ⟨f, rfl, ?_⟩
      obtain ⟨hfs, before, after, hl, hb⟩ := List.find?_eq_some_iff_append.1 hf
      have hle : d.id ≤ f.id := least f (List.mem_of_find?_eq_some hf) (by simpa using hfs)
      rcases List.mem_append.1 (hl ▸ hd) with hd | hd
      · simpa using hb d hd
      · rcases List.mem_cons.1 hd with rfl | hd
        · rfl
        · have ascending := (List.pairwise_append.1 (hl ▸ hs.ascending)).2.1
          have := (List.pairwise_cons.1 ascending).1 d hd
          omega

/-- The calls for a session are not among the first ones that started. -/
structure Behind (s : System) (i k : Nat) : Prop where
  made : k ≤ s.callsMade
  calls : ∀ c ∈ s.calls, c.session = i → k ≤ c.id

theorem Behind.next (h : s.Behind i k) (hs : s.Orderly) (step : Step limits keys s e s' fs) :
    s'.Behind i k where
  made := Nat.le_trans h.made step.callsMade_le
  calls c hc hi := by
    cases step.comes hs hc with
    | started request event call =>
        rw [call]
        exact h.made
    | left mem => exact h.calls c mem hi
    | moved mem moves call =>
        obtain ⟨hid, hsession, _⟩ := Move.call?_eq call
        exact hid ▸ h.calls _ mem (hsession ▸ hi)

theorem Behind.succ (h : s.Behind i k) (hs : s.Orderly) (made : k < s.callsMade)
    (step : Step limits keys s e s' fs) (free : s'.Free i)
    (served : e = .acquire k ∨ e = .cancel k) : s'.Behind i (k + 1) where
  made := Nat.lt_of_lt_of_le made step.callsMade_le
  calls c hc hi := by
    refine Nat.lt_of_le_of_ne ((h.next hs step).calls c hc hi) fun hid => ?_
    cases step.comes hs hc with
    | started request event => rcases served with rfl | rfl <;> cases event
    | left mem event =>
        refine event ?_
        rcases served with rfl | rfl <;> exact congrArg some hid
    | moved mem moves call => exact moves.call?_ne_queued call (free c hc hi)

end System

open HollowNode.Bootstrap.System

namespace History

variable {limits : Limits} {keys : Nat → Key.Pair} {now a n m l i k id : Nat}
  {r : History limits keys now} {c d : Call} {answer : Answer} {csr : String}

def Asks (r : History limits keys now) (id : Nat) : Prop :=
  ∃ l, (∃ request, .submit id request ∈ r.effects l) ∨ ∃ csr, .poll id csr ∈ r.effects l

theorem acquired_of_submit {request : Csr.SigningRequest} (h : .submit id request ∈ r.effects l) :
    r.event l = .acquire id := by
  obtain ⟨c, _, session, rfl, _, moves, _⟩ := (r.step l).of_submit h
  exact moves.of_submit.2.1

theorem acquired_of_poll (h : .poll id csr ∈ r.effects l) : ∃ a ≤ l, r.event a = .acquire id := by
  obtain ⟨c, hc, m, moves, _, _, single⟩ := (r.step l).of_effect h
  have begun {w : Nat} (hw : c.phase.start? = some w) : ∃ a ≤ l, r.event a = .acquire c.id := by
    obtain ⟨a, ha, acquires, _⟩ := r.began l c hc w hw
    exact ⟨a, Nat.le_of_lt ha, acquires⟩
  cases m with
  | leave | fail | submit | note => cases single
  | go =>
      cases single
      generalize he : r.event l = e at moves
      cases moves with
      | resume => exact ⟨l, Nat.le_refl l, he⟩
      | accepted phase | wake phase => exact begun (by rw [phase]; rfl)

theorem acquired_of_asks (h : r.Asks id) :
    ∃ l a, a ≤ l ∧ r.event a = .acquire id ∧ ∃ f ∈ r.effects l, f.call = id ∧
    ∀ answer, f ≠ .answer id answer := by
  obtain ⟨l, ⟨request, hf⟩ | ⟨csr, hf⟩⟩ := h
  · exact ⟨l, l, Nat.le_refl l, acquired_of_submit hf, _, hf, rfl, nofun⟩
  · obtain ⟨a, ha, acquires⟩ := acquired_of_poll hf
    exact ⟨l, a, ha, acquires, _, hf, rfl, nofun⟩

theorem over_of_answer (answered : .answer id answer ∈ r.effects a) (hal : a < l) :
    ∀ c ∈ (r.state l).calls, c.id ≠ id := by
  -- Numbers are not given twice, so that no other call is taken for it either.
  let Over (s : System) : Prop := id < s.callsMade ∧ ∀ c ∈ s.calls, c.id ≠ id
  obtain ⟨c, hc, hid⟩ := (r.step a).effects_call _ answered
  obtain rfl : id = c.id := hid
  obtain ⟨m, ends, hstate⟩ : ∃ m : Move, m.call? (r.state a) c = none ∧
      r.state (a + 1) = ((r.state a).after keys c m).1 := by
    rcases (r.step a).answers (r.orderly a) hc answered with ⟨session, _, hstate⟩
      | ⟨fault, _, _, hstate⟩
    · exact ⟨_, rfl, hstate⟩
    · exact ⟨_, rfl, hstate⟩
  have first : Over (r.state (a + 1)) := by
    rw [hstate]
    refine ⟨by simpa using (r.orderly a).numbered c hc, fun d hd => ?_⟩
    rcases ((r.orderly a).mem_after hc).1 hd with ⟨_, hne⟩ | hd
    · exact hne
    · cases ends.symm.trans hd
  have later : Over (r.state l) := by
    refine r.keeps (P := Over) hal first fun n _ gone => ?_
    refine ⟨Nat.lt_of_lt_of_le gone.1 (r.step n).callsMade_le, fun d hd => ?_⟩
    cases (r.step n).comes (r.orderly n) hd with
    | started request event call =>
        rw [call]
        exact Nat.ne_of_gt gone.1
    | left mem => exact gone.2 d mem
    | moved mem moves call =>
        rw [(Move.call?_eq call).1]
        exact gone.2 _ mem
  exact later.2

theorem answered_once {other : Answer} (answered : .answer id answer ∈ r.effects a)
    (again : .answer id other ∈ r.effects l) : a = l := by
  obtain ⟨c, hc, hid⟩ := (r.step a).effects_call _ answered
  obtain ⟨d, hd, hid'⟩ := (r.step l).effects_call _ again
  rcases Nat.lt_trichotomy a l with hal | rfl | hla
  · exact absurd hid'.symm (over_of_answer answered hal d hd)
  · rfl
  · exact absurd hid.symm (over_of_answer again hla c hc)

theorem not_asks (acquires : r.event a = .acquire id)
    (answered : r.effects a = [.answer id answer]) : ¬r.Asks id := by
  intro asks
  obtain ⟨l, b, hbl, acquires', f, hf, hcall, other⟩ := acquired_of_asks asks
  obtain rfl := acquires_once acquires acquires'
  rcases Nat.lt_or_eq_of_le hbl with hlt | rfl
  · obtain ⟨c, hc, hfc⟩ := (r.step l).effects_call f hf
    exact over_of_answer (answered ▸ List.mem_singleton_self _) hlt c hc (hfc.symm.trans hcall)
  · rw [answered] at hf
    exact other answer (List.mem_singleton.1 hf)

theorem unpolled (hc : c ∈ (r.state n).calls)
    (phase : c.phase = .queued ∨ ∃ w, c.phase = .submitting w) (hln : l < n) :
    .poll c.id csr ∉ r.effects l := by
  intro polled
  have hzero : r.polls c.id n = 0 := (r.paced n c hc).eq_zero phase
  have hone : 0 < (r.effects l).countP (·.polls c.id) :=
    List.countP_pos_iff.2 ⟨_, polled, by simp [Effect.polls]⟩
  have hmono := r.polls_mono c.id hln
  rw [hzero, polls] at hmono
  omega

theorem polled_before (r : History limits keys now) (n : Nat) : ∀ c ∈ (r.state n).calls,
    ((∃ w, c.phase = .polling w) ∨ ∃ w wakeAt, c.phase = .sleeping w wakeAt) →
      ∃ csr t polls, ((r.state n).sessions c.session).state = .polling csr t polls ∧
        ∀ name, (∃ l < n, .poll c.id name ∈ r.effects l) ↔ name = csr := by
  -- A call comes to know a request when it resumes it or when its own is accepted, and polls it in
  -- that very step. From then on nobody else changes its session, and whenever it wakes it polls
  -- what the session holds.
  induction n with
  | zero =>
      rw [r.state_zero]
      exact fun c hc => absurd hc List.not_mem_nil
  | succ n ih =>
      intro d hd phase
      have polls_succ (name : String) : (∃ l < n + 1, .poll d.id name ∈ r.effects l) ↔
          (∃ l < n, .poll d.id name ∈ r.effects l) ∨ .poll d.id name ∈ r.effects n := by
        simp only [Nat.lt_succ_iff_lt_or_eq, or_and_right, exists_or, exists_eq_left]
      simp only [polls_succ]
      cases (r.step n).comes (r.orderly n) hd with
      | started request event call =>
          subst call
          rcases phase with ⟨_, phase⟩ | ⟨_, _, phase⟩ <;> cases phase
      | left mem event effects session =>
          have hq : d.phase ≠ .queued := by
            rcases phase with ⟨_, phase⟩ | ⟨_, _, phase⟩ <;> simp [phase]
          have silent (name : String) : .poll d.id name ∉ r.effects n := fun hf => effects _ hf rfl
          obtain ⟨csr, t, polls, held, known⟩ := ih d mem phase
          exact ⟨csr, t, polls, by rwa [session hq], by simpa [silent] using known⟩
      | @moved c m mem moves call state effects =>
          obtain ⟨hid, hsession, _⟩ := Move.call?_eq call
          rw [hid, hsession, state, after_session, effects]
          have first (waits : c.phase = .queued ∨ ∃ w, c.phase = .submitting w) (name : String) :
              ¬∃ l < n, .poll c.id name ∈ r.effects l := fun ⟨l, hln, polled⟩ =>
                unpolled mem waits hln polled
          generalize r.event n = e at moves
          cases moves with
          | reuse | turnAway | overrun | pend | stop | withdraw | refused | unreachable
              | unusable | timeOut
          | abandoned | issue => cases call
          | renew | request =>
              cases call
              rcases phase with ⟨_, phase⟩ | ⟨_, _, phase⟩ <;> cases phase
          | resume next =>
              have waits : c.phase = .queued := by
                simpa [isNext] using (Bool.and_eq_true_iff.1 next).1
              exact ⟨_, _, _, rfl, by simp [first (.inl waits), after]⟩
          | accepted submits => exact ⟨_, _, _, rfl, by simp [first (.inr ⟨_, submits⟩), after]⟩
          | wake sleeps due held =>
              obtain ⟨csr, t, polls, other, known⟩ := ih c mem (.inr ⟨_, _, sleeps⟩)
              cases held.symm.trans other
              exact ⟨_, _, _, rfl, by simp [known, after]⟩
          | sleep waits =>
              obtain ⟨csr, t, polls, held, known⟩ := ih c mem (.inl ⟨_, waits⟩)
              exact ⟨csr, t, polls, held, by simp [known, after]⟩
          | note =>
              cases call
              obtain ⟨csr, t, polls, held, known⟩ := ih c mem phase
              exact ⟨csr, t, polls, held, by simp [known, after]⟩

structure Gets (r : History limits keys now) (n i : Nat) (d : Call) : Prop where
  mem : d ∈ (r.state n).calls
  session : d.session = i
  acquires : r.event n = .acquire d.id

/-- The call that gets a session next after a step. -/
structure Follows (r : History limits keys now) (n m i : Nat) (d : Call) : Prop
    extends r.Gets m i d where
  later : n < m
  next : ∀ l, n < l → l < m → ∀ b, ¬r.Gets l i b

/-- A call that is the next to get its session gets it some time, or is cancelled. -/
def Fair (r : History limits keys now) : Prop :=
  ∀ n, ∀ c ∈ (r.state n).calls, (r.state n).isNext c = true →
    ∃ m ≥ n, r.event m = .acquire c.id ∨ r.event m = .cancel c.id

theorem free_until (free : (r.state n).Free i) (hnm : n ≤ m)
    (left : ∀ l, n ≤ l → l < m → ∀ b, ¬r.Gets l i b) :
    (r.state m).Free i ∧ (r.state m).sessions i = (r.state n).sessions i := by
  induction hnm with
  | refl => exact ⟨free, rfl⟩
  | @step m hnm ih =>
      obtain ⟨free, same⟩ := ih fun l hnl hlm => left l hnl (Nat.lt_succ_of_lt hlm)
      obtain ⟨free, kept⟩ := free.next (r.orderly m) (r.step m) fun b hb hi acquires =>
        left m hnm (Nat.lt_succ_self m) b ⟨hb, hi, acquires⟩
      exact ⟨free, kept.trans same⟩

theorem waits (hd : d ∈ (r.state n).calls) (free : ∀ l ≥ n, (r.state l).Free d.session)
    (left : ∀ l ≥ n, ¬r.Gets l d.session d) (kept : ∀ l, r.event l ≠ .cancel d.id) (hnm : n ≤ m) :
    d ∈ (r.state m).calls :=
  r.keeps (P := fun s => d ∈ s.calls) hnm hd fun l hnl hd =>
    (r.step l).waits (r.orderly l) hd (free l hnl d hd rfl)
      (fun acquires => left l hnl ⟨hd, rfl, acquires⟩) (kept l)

theorem behind (fair : r.Fair) (hd : d ∈ (r.state n).calls)
    (free : ∀ l ≥ n, (r.state l).Free d.session) (hk : k ≤ d.id) :
    ∃ m ≥ n, (r.state m).Behind d.session k := by
  -- The call with the number `k` is the first of the queue when all before it are gone, so that it
  -- gets its turn, unless it is gone too or waits for another session.
  induction k with
  | zero => exact ⟨n, Nat.le_refl n, Nat.zero_le _, fun _ _ _ => Nat.zero_le _⟩
  | succ k ih =>
      obtain ⟨m, hnm, behind⟩ := ih (Nat.le_of_succ_le hk)
      have later {l : Nat} (hml : m ≤ l) : (r.state l).Behind d.session k :=
        r.keeps (P := fun s => s.Behind d.session k) hml behind fun l _ h =>
          h.next (r.orderly l) (r.step l)
      have made {l : Nat} (hnl : n ≤ l) : k < (r.state l).callsMade :=
        r.keeps (P := fun s => k < s.callsMade) hnl (Nat.lt_trans hk ((r.orderly n).numbered d hd))
          fun l _ h => Nat.lt_of_lt_of_le h (r.step l).callsMade_le
      by_cases first : ∃ c ∈ (r.state m).calls, c.session = d.session ∧ c.id = k
      · obtain ⟨c, hc, hi, rfl⟩ := first
        have next := (r.orderly m).isNext_of_least hc (free m hnm c hc hi) fun b hb hbc =>
          behind.calls b hb (hbc.trans hi)
        obtain ⟨l, hml, served⟩ := fair m c hc next
        have hnl := Nat.le_trans hnm hml
        exact ⟨l + 1, Nat.le_succ_of_le hnl,
          (later hml).succ (r.orderly l) (made hnl) (r.step l)
            (free (l + 1) (Nat.le_succ_of_le hnl)) served⟩
      · exact ⟨m, hnm, made hnm, fun c hc hi =>
          Nat.lt_of_le_of_ne (behind.calls c hc hi) fun hid => first ⟨c, hc, hi, hid.symm⟩⟩

theorem served (fair : r.Fair) (hd : d ∈ (r.state n).calls)
    (free : ∀ l ≥ n, (r.state l).Free d.session) (kept : ∀ l, r.event l ≠ .cancel d.id) :
    ∃ m ≥ n, r.Gets m d.session d := by
  refine Classical.byContradiction fun never => ?_
  have left : ∀ l ≥ n, ¬r.Gets l d.session d := fun l hnl gets => never ⟨l, hnl, gets⟩
  obtain ⟨m, hnm, behind⟩ := behind fair hd free (Nat.le_refl d.id)
  have mem := waits hd free left kept hnm
  obtain ⟨l, hml, acquires | cancelled⟩ := fair m d mem
    ((r.orderly m).isNext_of_least mem (free m hnm d mem rfl) behind.calls)
  · have hnl := Nat.le_trans hnm hml
    exact left l hnl ⟨waits hd free left kept hnl, rfl, acquires⟩
  · exact kept l cancelled

theorem follower (fair : r.Fair) (free : (r.state (n + 1)).Free i)
    (hd : d ∈ (r.state (n + 1)).calls) (hi : d.session = i) (kept : ∀ l, r.event l ≠ .cancel d.id) :
    ∃ m b, r.Follows n m i b := by
  classical
  have some : ∃ m, n < m ∧ ∃ b, r.Gets m i b := by
    refine Classical.byContradiction fun never => ?_
    have unowned {l : Nat} (hnl : n < l) (b : Call) : ¬r.Gets l i b :=
      fun gets => never ⟨l, hnl, b, gets⟩
    have free (l : Nat) (hnl : l ≥ n + 1) : (r.state l).Free d.session :=
      hi ▸ (free_until free hnl fun k hnk _ => unowned hnk).1
    obtain ⟨m, hnm, gets⟩ := served fair hd free kept
    exact unowned hnm d (hi ▸ gets)
  obtain ⟨later, b, gets⟩ := Nat.find_spec some
  exact ⟨_, b, gets, later, fun l hnl hlm b gets => Nat.find_min some hlm ⟨hnl, b, gets⟩⟩

theorem issued_until {identity : ClientIdentity}
    (held : ((r.state n).sessions i).state = .issued identity) (hnm : n ≤ m)
    (alive : identity.outlives (r.state m).now = true) :
    ((r.state m).sessions i).state = .issued identity := by
  have outlived {l : Nat} (hlm : l ≤ m) : identity.outlives (r.state l).now = true := by
    rw [ClientIdentity.outlives_iff] at alive ⊢
    have := r.now_mono hlm
    omega
  induction hnm with
  | refl => exact held
  | @step m hnm ih =>
      have held := ih (outlived (Nat.le_succ m)) fun hlm => outlived (Nat.le_succ_of_le hlm)
      rw [(r.step m).sessions_of_issued (r.orderly m) held (outlived (Nat.le_succ m))]
      exact held

theorem Gets.call (h : r.Gets n i d) : ∃ m, Moves limits (r.state n) d (.acquire d.id) m ∧
    r.state (n + 1) = ((r.state n).after keys d m).1 ∧
    r.effects n = ((r.state n).after keys d m).2 := by
  have step := r.step n
  rw [h.acquires] at step
  obtain ⟨b, hb, hid, m, moves, hstate, heffects⟩ := step.of_call rfl
  obtain rfl := (r.orderly n).eq_of_id hb h.mem hid
  exact ⟨m, moves, hstate, heffects⟩

theorem Gets.reuses {identity : ClientIdentity} (h : r.Gets n i d)
    (held : ((r.state n).sessions i).state = .issued identity)
    (alive : identity.outlives (r.state n).now = true) :
    r.effects n = [.answer d.id (.ok (.issued identity))] := by
  obtain rfl := h.session
  obtain ⟨m, moves, _, heffects⟩ := h.call
  rw [heffects]
  cases moves with
  | reuse next other =>
      cases held.symm.trans other
      rfl
  | renew next other dead =>
      cases held.symm.trans other
      cases alive.symm.trans dead
  | request next other | turnAway next other | resume next other => cases held.symm.trans other

theorem Gets.turnedAway {reason : String} (h : r.Gets n i d)
    (held : ((r.state n).sessions i).state = .failed reason) :
    r.effects n = [.answer d.id (.error (.failed d.request.key reason))] ∧
      (r.state (n + 1)).registry = (r.state n).registry ∧
      (r.state (n + 1)).sessions = (r.state n).sessions := by
  obtain rfl := h.session
  obtain ⟨m, moves, hstate, heffects⟩ := h.call
  rw [hstate, heffects]
  cases moves with
  | turnAway next other =>
      cases held.symm.trans other
      refine ⟨rfl, rfl, ?_⟩
      simp [after, finish]
  | reuse next other | renew next other | request next other | resume next other =>
      cases held.symm.trans other

theorem Gets.resumes {t polls : Nat} (h : r.Gets n i d)
    (held : ((r.state n).sessions i).state = .polling csr t polls) :
    r.effects n = [.poll d.id csr] ∧ ∀ l request, .submit d.id request ∉ r.effects l := by
  obtain rfl := h.session
  have step := r.step n
  rw [h.acquires] at step
  obtain ⟨polled, -⟩ := step.resumes (r.orderly n) h.mem held
  refine ⟨polled, fun l request submitted => ?_⟩
  obtain rfl := acquires_once h.acquires (acquired_of_submit submitted)
  rw [polled] at submitted
  cases List.mem_singleton.1 submitted

theorem assigned_of_mem (hd : d ∈ (r.state n).calls) (hnm : n ≤ m) :
    (r.state m).Assigned d.id d.session := by
  have first : (r.state n).Assigned d.id d.session :=
    ⟨(r.orderly n).numbered d hd, fun b hb hid => by rw [(r.orderly n).eq_of_id hb hd hid]⟩
  exact r.keeps (P := fun s => s.Assigned d.id d.session) hnm first fun l _ h =>
    h.next (r.orderly l) (r.step l)

theorem not_asks_of_failed {reason : String}
    (held : ((r.state n).sessions d.session).state = .failed reason) (hd : d ∈ (r.state n).calls) :
    ¬r.Asks d.id := by
  intro asks
  obtain ⟨_, a, _, acquires, _⟩ := acquired_of_asks asks
  have hna : n ≤ a := by
    refine Nat.le_of_not_lt fun han => ?_
    exact acquired acquires han d hd rfl ((r.orderly n).free_of_failed held d hd rfl)
  have step := r.step a
  rw [acquires] at step
  obtain ⟨b, hb, hid, _⟩ := step.of_call rfl
  have gets : r.Gets a d.session b :=
    ⟨hb, (assigned_of_mem hd hna).session b hb hid, hid ▸ acquires⟩
  exact not_asks acquires (hid ▸ (gets.turnedAway (r.failed_mono hna held)).1) asks

theorem issues {identity : ClientIdentity} (hc : c ∈ (r.state n).calls)
    (answered : .answer c.id (.ok (.issued identity)) ∈ r.effects n) :
    ((r.state (n + 1)).sessions c.session).state = .issued identity := by
  rcases (r.step n).answers (r.orderly n) hc answered with ⟨session, moves, hstate⟩
    | ⟨fault, failed, _⟩
  · rw [hstate, after_session]
    exact moves.issued
  · cases failed

theorem fails {fault : Fault} (hc : c ∈ (r.state n).calls) (held : c.phase ≠ .queued)
    (answered : .answer c.id (.error fault) ∈ r.effects n) (ends : fault.endsSession = true) :
    ((r.state (n + 1)).sessions c.session).state = .failed fault.message := by
  rcases (r.step n).answers (r.orderly n) hc answered with ⟨session, moves, _⟩
    | ⟨other, failed, moves, hstate⟩
  · cases (moves.leave_spares held).symm.trans ends
  · cases failed
    rw [hstate, after_session]
    rfl

/-- A request that a call has made just now, or has polled. -/
def Knows (r : History limits keys now) (n id : Nat) (csr : String) : Prop :=
  r.event n = .submitted id (.ok csr) ∨ ∃ l < n, .poll id csr ∈ r.effects l

theorem leaves (hc : c ∈ (r.state n).calls) (held : c.phase ≠ .queued)
    (answered : .answer c.id answer ∈ r.effects n) (left : answer.leavesRequest = true) :
    (r.state (n + 1)).Free c.session ∧
      ∃ csr, (∀ name, r.Knows n c.id name ↔ name = csr) ∧
        ∃ t polls, ((r.state (n + 1)).sessions c.session).state = .polling csr t polls := by
  rcases (r.step n).answers (r.orderly n) hc answered with ⟨session, moves, hstate⟩
    | ⟨fault, rfl, moves, hstate⟩
  · refine ⟨hstate ▸ (r.orderly n).free_after hc held rfl, ?_⟩
    rw [hstate, after_session]
    rcases moves.leave_request held left with ⟨csr, event, submits, state⟩ | ⟨same, phase, event⟩
    · have first (name : String) : ¬∃ l < n, .poll c.id name ∈ r.effects l :=
        fun ⟨l, hln, polled⟩ => unpolled hc (.inr submits) hln polled
      exact ⟨csr, fun name => by simp [Knows, event, first, eq_comm], _, _, state⟩
    · obtain ⟨csr, t, polls, state, known⟩ := r.polled_before n c hc phase
      exact ⟨csr, fun name => by simp [Knows, event, known], t, polls, same ▸ state⟩
  · simp [Answer.leavesRequest, moves.fail_ends] at left

/-- What the calls find that wait while another call has their session. If that call ends with an
identity, they get the same as long as it has not expired. If the call fails, they all fail with the
reason that it gives, and change neither the registry nor a session. In both cases they ask nothing
of the API server. If the call ends while its request is pending, the next one goes on to poll the
request, and submits none. -/
theorem queue_joins (r : History limits keys now) (n : Nat) (c : Call) (answer : Answer)
    (hc : c ∈ (r.state n).calls) (answered : .answer c.id answer ∈ r.effects n) :
    (∀ identity, answer = .ok (.issued identity) →
      ∀ m > n, ∀ d, r.Gets m c.session d → identity.outlives (r.state m).now = true →
        r.effects m = [.answer d.id (.ok (.issued identity))] ∧ ¬r.Asks d.id) ∧
    (∀ fault, answer = .error fault → fault.endsSession = true → c.phase ≠ .queued →
      ∀ m > n, ∀ d ∈ (r.state m).calls, d.session = c.session →
        ¬r.Asks d.id ∧
        (∀ l ≥ m, r.Gets l c.session d →
          r.effects l = [.answer d.id (.error (.failed c.request.key fault.message))] ∧
            (r.state (l + 1)).registry = (r.state l).registry ∧
            (r.state (l + 1)).sessions = (r.state l).sessions) ∧
        (r.Fair → (∀ l, r.event l ≠ .cancel d.id) → ∃ l ≥ m, r.Gets l c.session d)) ∧
    (answer.leavesRequest = true → c.phase ≠ .queued →
      ∃ csr, (∀ name, r.Knows n c.id name ↔ name = csr) ∧ (∀ m d, r.Follows n m c.session d →
        r.effects m = [.poll d.id csr] ∧ ∀ l request, .submit d.id request ∉ r.effects l) ∧
      (r.Fair → ∀ d ∈ (r.state (n + 1)).calls, d.session = c.session →
        (∀ l, r.event l ≠ .cancel d.id) → ∃ m b, r.Follows n m c.session b)) := by
  refine ⟨?_, ?_, fun left held => ?_⟩
  · rintro identity rfl m hnm d gets alive
    have reuses := gets.reuses (issued_until (issues hc answered) hnm alive) alive
    exact ⟨reuses, not_asks gets.acquires reuses⟩
  · rintro fault rfl ends held m hnm d hd hsession
    have failed {l : Nat} (hnl : n < l) :
        ((r.state l).sessions c.session).state = .failed fault.message :=
      r.failed_mono hnl (fails hc held answered ends)
    refine ⟨not_asks_of_failed (hsession ▸ failed hnm) hd, fun l hml gets => ?_,
      fun fair kept => ?_⟩
    · have hnl : n < l := Nat.lt_of_lt_of_le hnm hml
      have hkey : d.request.key = c.request.key :=
        (r.belongs (Nat.le_of_lt hnl) ((r.orderly n).calls c hc)).calls d gets.mem gets.session
      rw [← hkey]
      exact gets.turnedAway (failed hnl)
    · rw [← hsession] at failed ⊢
      exact served fair hd
        (fun l hml => (r.orderly l).free_of_failed (failed (Nat.lt_of_lt_of_le hnm hml))) kept
  · obtain ⟨free, csr, knows, t, polls, pending⟩ := leaves hc held answered left
    refine ⟨csr, knows, fun m d follows => ?_,
      fun fair d hd hsession kept => follower fair free hd hsession kept⟩
    obtain ⟨_, same⟩ := free_until free follows.later fun l hnl hlm => follows.next l hnl hlm
    have held : ((r.state m).sessions c.session).state = .polling csr t polls := same ▸ pending
    exact follows.toGets.resumes held

/-- Two calls wait while the request of a third is refused, and a fourth gets another session after
that. -/
def refusedQueue : History {} (fun _ => ⟨"", [], fun _ => []⟩) 0 := ofEvents
  [.start ⟨"a", "a", ""⟩, .acquire 0, .start ⟨"a", "a", ""⟩, .start ⟨"a", "a", ""⟩,
    .submitted 0 (.error (.denied "no")), .start ⟨"a", "a", ""⟩, .acquire 1, .acquire 2]

theorem refusedQueue_joins :
    (refusedQueue.state 7).Registered "a" 1 ∧
      refusedQueue.effects 4 = [.answer 0 (.error (.failed "a" "CSR denied: no"))] ∧
      refusedQueue.effects 7 =
        [.answer 2 (.error (.failed "a" (Fault.failed "a" "CSR denied: no").message))] ∧
      (refusedQueue.state 8).registry = (refusedQueue.state 7).registry ∧ ¬refusedQueue.Asks 2 ∧
      resumption.effects 3 = [.answer 0 (.error (.cancelled "a"))] ∧
      resumption.effects 7 = [.poll 1 "csr"] := by
  have refused : refusedQueue.effects 4 = [.answer 0 (.error (.failed "a" "CSR denied: no"))] := rfl
  obtain ⟨-, failed, -⟩ := queue_joins refusedQueue 4 ⟨0, ⟨"a", "a", ""⟩, 0, .submitting 0, false⟩
    (.error (.failed "a" "CSR denied: no")) (.head _) (refused ▸ .head _)
  have waits : (⟨2, ⟨"a", "a", ""⟩, 0, .queued, false⟩ : Call) ∈ (refusedQueue.state 7).calls :=
    .head _
  obtain ⟨silent, turnedAway, -⟩ := failed _ rfl rfl nofun 7 (by decide) _ waits rfl
  obtain ⟨effects, registry, -⟩ := turnedAway 7 (Nat.le_refl 7) ⟨waits, rfl, rfl⟩
  obtain ⟨-, -, pending⟩ := queue_joins resumption 3 ⟨0, ⟨"a", "a", ""⟩, 0, .submitting 0, true⟩
    (.error (.cancelled "a")) (.head _) (.head _)
  obtain ⟨csr, known, resumes, -⟩ := pending rfl nofun
  obtain rfl : "csr" = csr := (known _).1 (.inl rfl)
  have next (l : Nat) (hl : 3 < l) (hl' : l < 7) (b : Call) : ¬resumption.Gets l 0 b := by
    rintro ⟨-, -, acquires⟩
    obtain rfl | rfl | rfl : l = 4 ∨ l = 5 ∨ l = 6 := by omega
    · cases (show Event.start ⟨"a", "a", ""⟩ = .acquire b.id from acquires)
    · cases (show Event.start ⟨"a", "a", ""⟩ = .acquire b.id from acquires)
    · cases (show Event.cancel 2 = .acquire b.id from acquires)
  obtain ⟨polls, -⟩ :=
    resumes 7 ⟨1, ⟨"a", "a", ""⟩, 0, .queued, false⟩ ⟨⟨.head _, rfl, rfl⟩, by decide, next⟩
  exact ⟨⟨⟨1, 0⟩, rfl, rfl⟩, refused, effects, registry, silent, rfl, polls⟩

end History

end HollowNode.Bootstrap
