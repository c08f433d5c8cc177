import HollowNode.Proofs.Bootstrap.Polling
import HollowNode.Proofs.Bootstrap.SingleFlight

namespace HollowNode.Bootstrap

/-- The answer of a call that can be made again: it was cancelled or is to come back later. -/
def Answer.putsOff : Answer → Bool
  | .error (.cancelled _) | .ok (.pending _) => true
  | .error (.timeout ..) | .error (.failed ..) | .error (.outOfRange _) | .ok (.issued _) => false

def Effect.putsOff : Effect → Bool
  | .answer _ result => result.putsOff
  | .submit .. | .poll .. | .sleep .. => true

namespace System

variable {limits : Limits} {keys : Nat → Key.Pair} {s s' : System} {c d : Call}
  {e : Event} {m : Move} {fs : List Effect} {i t polls : Nat} {key csr pem : String}

def pollsFor (s : System) (i : Nat) (csr : String) : Effect → Bool
  | .poll id name => name = csr && (s.call? id).any (·.session = i)
  | .submit .. | .sleep .. | .answer .. => false

theorem Orderly.pollsFor (hs : s.Orderly) (hc : c ∈ s.calls) (i : Nat) (csr : String) :
    s.pollsFor i csr (.poll c.id csr) = decide (c.session = i) := by
  simp [System.pollsFor, hs.call?_eq hc]

theorem Orderly.pollsFor_of_ne (hs : s.Orderly) (hc : c ∈ s.calls) (hi : c.session ≠ i) {f : Effect}
    (hf : f.call = c.id) : s.pollsFor i csr f = false := by
  cases f with
  | submit | sleep | answer => rfl
  | poll id name =>
      obtain rfl : id = c.id := hf
      simp [System.pollsFor, hs.call?_eq hc, hi]

structure Pends (s : System) (key : String) (i : Nat) (csr : String) (t polls : Nat)
    (pem : String) : Prop where
  registered : s.Registered key i
  session : s.sessions i = ⟨.polling csr t polls, ⟨some pem, none⟩⟩

theorem Moves.not_cancelled {fault : Fault} (moves : Moves limits s c e (.fail fault))
    (key : String) : fault ≠ .cancelled key := by
  cases moves with
  | refused | unreachable | unusable | timeOut => nofun

/-- The calls for a key that a step ends are put off. -/
def PutsOff (s : System) (key : String) (fs : List Effect) : Prop :=
  ∀ c ∈ s.calls, c.request.key = key → ∀ answer : Answer, .answer c.id answer ∈ fs → answer.putsOff

theorem Moves.registered (hc : c ∈ s.calls) (moves : Moves limits s c e m)
    (putOff : s.PutsOff key (s.after keys c m).2) (h : s.Registered key i) :
    (s.after keys c m).1.Registered key i := by
  obtain ⟨entry, hk, he⟩ := h
  by_cases fails : m.Fails
  · have hne : key ≠ c.request.key := by
      intro hkey
      cases m with
      | leave | submit | go | note => exact fails
      | fail fault =>
          have off : Answer.putsOff (.error fault) = true := putOff c hc hkey.symm _ (.head _)
          cases fault with
          | cancelled other => exact moves.not_cancelled other rfl
          | timeout | failed | outOfRange => cases off
    exact ⟨entry, by simp [after_registry_of_fails fails, hne, hk], he⟩
  · exact ⟨entry, by rw [after_registry fails]; exact hk, he⟩

theorem Moves.pends (hs : s.Orderly) (hc : c ∈ s.calls) (moves : Moves limits s c e m)
    (off : ∀ answer : Answer, .answer c.id answer ∈ (s.after keys c m).2 → answer.putsOff)
    (held : s.sessions c.session = ⟨.polling csr t polls, ⟨some pem, none⟩⟩) :
    m.session keys s c =
      ⟨.polling csr t (polls + (s.after keys c m).2.countP (s.pollsFor c.session csr)),
        ⟨some pem, none⟩⟩ := by
  have state : (s.sessions c.session).state = .polling csr t polls := congrArg Session.state held
  have polled : s.pollsFor c.session csr (.poll c.id csr) = true := by simp [hs.pollsFor hc]
  cases moves with
  | reuse next other | renew next other | request next other | turnAway next other =>
      cases state.symm.trans other
  | refused phase | accepted phase | abandoned phase =>
      cases state.symm.trans (hs.requesting hc phase)
  | unreachable | issue | unusable | timeOut | overrun => cases off _ (.head _)
  | resume next other | wake phase due other =>
      cases state.symm.trans other
      simp [after, Move.session, polled, held]
  | pend | stop | sleep | withdraw => exact held
  | note => exact held

theorem Pends.next (hs : s.Orderly) (h : s.Pends key i csr t polls pem)
    (step : Step limits keys s e s' fs) (unreleased : e ≠ .release key)
    (unevicted : ∀ request entry, e = .start request → request.key ≠ key →
      s.registry.get? key = some entry → s.stays limits entry = false → s'.registry.get? key ≠ none)
    (putOff : s.PutsOff key fs) :
    s'.Pends key i csr t (polls + fs.countP (s.pollsFor i csr)) pem := by
  obtain ⟨entry, hk, rfl⟩ := h.registered
  cases step with
  | start request =>
      refine ⟨?_, by rw [start_sessions]; exact h.session⟩
      rcases registered_or_dropped hk request with h | ⟨hne, dropped, gone⟩
      · exact h
      · exact absurd gone (unevicted request entry rfl hne hk dropped)
  | release released =>
      have hne : key ≠ released := fun heq => unreleased (heq ▸ rfl)
      exact ⟨⟨entry, by simp [System.release, hne, hk], rfl⟩, h.session⟩
  | advance => exact ⟨⟨entry, hk, rfl⟩, h.session⟩
  | @move c e m mem moves =>
      refine ⟨moves.registered mem putOff ⟨entry, hk, rfl⟩, ?_⟩
      by_cases hi : c.session = entry.session
      · have hkey : c.request.key = key := (hs.entries key entry hk).calls c mem hi
        have held : s.sessions c.session = ⟨.polling csr t polls, ⟨some pem, none⟩⟩ :=
          hi ▸ h.session
        rw [← hi, after_session]
        exact moves.pends hs mem (putOff c mem hkey) held
      · have unpolled : (s.after keys c m).2.countP (s.pollsFor entry.session csr) = 0 := by
          refine List.countP_eq_zero.2 fun f hf => ?_
          simp [hs.pollsFor_of_ne mem hi (moves.effects_call f hf)]
        rw [unpolled, after_sessions_of_ne (Ne.symm hi)]
        exact h.session

theorem Step.resumes (step : Step limits keys s (.acquire c.id) s' fs) (hs : s.Orderly)
    (hc : c ∈ s.calls) (held : (s.sessions c.session).state = .polling csr t polls) :
    fs = [.poll c.id csr] ∧ { c with phase := .polling s.now } ∈ s'.calls ∧
      (s'.sessions c.session).state = .polling csr t (polls + 1) := by
  obtain ⟨b, hb, hid, m, moves, rfl, rfl⟩ := step.of_call rfl
  obtain rfl := hs.eq_of_id hb hc hid
  cases moves with
  | reuse next other | renew next other | request next other | turnAway next other =>
      cases held.symm.trans other
  | resume next other =>
      cases held.symm.trans other
      exact ⟨rfl, (hs.mem_after hb).2 (.inr rfl), by rw [after_session]; rfl⟩

end System

open HollowNode.Bootstrap.System

namespace History

variable {limits : Limits} {keys : Nat → Key.Pair} {now a n m i id w t : Nat} {key csr : String}
  {r : History limits keys now}

theorem acquired (h : r.event m = .acquire id) (hmn : m < n) :
    ∀ c ∈ (r.state n).calls, c.id = id → c.phase ≠ .queued := by
  let Left (s : System) : Prop := id < s.callsMade ∧ ∀ c ∈ s.calls, c.id = id → c.phase ≠ .queued
  have step := r.step m
  rw [h] at step
  obtain ⟨c, hc, rfl, move, moves, hstate, _⟩ := step.of_call rfl
  have first : Left (r.state (m + 1)) := by
    rw [hstate]
    refine ⟨by simpa using (r.orderly m).numbered c hc, fun d hd hid => ?_⟩
    rcases ((r.orderly m).mem_after hc).1 hd with ⟨_, hne⟩ | hd
    · exact absurd hid hne
    · exact moves.call?_ne_queued hd
  have later : Left (r.state n) := by
    refine r.keeps (P := Left) hmn first fun l _ left => ?_
    refine ⟨Nat.lt_of_lt_of_le left.1 (r.step l).callsMade_le, fun d hd hid => ?_⟩
    cases (r.step l).comes (r.orderly l) hd with
    | started request event call =>
        rw [call] at hid
        exact absurd hid (Nat.ne_of_gt left.1)
    | left mem => exact left.2 d mem hid
    | moved mem moves call => exact moves.call?_ne_queued call
  exact later.2

theorem acquires_once (hm : r.event m = .acquire id) (hn : r.event n = .acquire id) : m = n := by
  have earlier {m n : Nat} (hm : r.event m = .acquire id) (hn : r.event n = .acquire id) :
      ¬m < n := by
    intro hmn
    have step := r.step n
    rw [hn] at step
    obtain ⟨c, hc, hid, move, moves, _⟩ := step.of_call rfl
    have waits : c.phase = .queued := by
      cases moves with
      | reuse next | renew next | request next | turnAway next | resume next =>
          simpa [isNext] using (Bool.and_eq_true_iff.1 next).1
    exact acquired hm hmn c hc hid waits
  exact Nat.le_antisymm (Nat.le_of_not_lt (earlier hn hm)) (Nat.le_of_not_lt (earlier hm hn))

theorem assigned {request : Csr.IdentityRequest} (started : r.event m = .start request)
    (hmn : m < n) :
    (r.state n).Assigned (r.state m).callsMade ((r.state m).sessionFor request.key) := by
  have first :
      (r.state (m + 1)).Assigned (r.state m).callsMade ((r.state m).sessionFor request.key) := by
    have step := r.step m
    rw [started] at step
    generalize r.state (m + 1) = s', r.effects m = fs at step
    cases step with
    | start => exact .start (r.orderly m) limits request
    | move mem moves => cases moves
  exact r.keeps
    (P := fun s => s.Assigned (r.state m).callsMade ((r.state m).sessionFor request.key)) hmn first
    fun l _ h => h.next (r.orderly l) (r.step l)

theorem Awaits.timeout_iff (h : r.Awaits n id w t) (hnm : n ≤ m)
    (polled : r.event m = .polled id (.ok none)) :
    (∃ key seconds, .answer id (.error (.timeout key seconds)) ∈ r.effects m) ↔
      t + limits.timeout ≤ (r.state m).now := by
  obtain ⟨i, hloops⟩ := h.loops
  have step := r.step m
  rw [polled] at step
  obtain ⟨c, hc, rfl, move, moves, _, heffects⟩ := step.of_call rfl
  obtain ⟨rfl, _, csr, polls, held⟩ := (hloops m hnm).call c hc rfl
  have ht : t ≤ (r.state m).now := accepted_le held
  rw [heffects]
  cases moves with
  | timeOut phase other late =>
      cases held.symm.trans other
      exact ⟨fun _ => by omega, fun _ => ⟨_, _, .head _⟩⟩
  | overrun phase other early | pend phase other early | stop phase other stopped early
  | sleep phase other going early =>
      cases held.symm.trans other
      refine ⟨fun ⟨key, seconds, hf⟩ => ?_, fun late => absurd late (by omega)⟩
      cases List.mem_singleton.1 hf

/-- How many times a request of a session was polled before a step. -/
def pollsFor (r : History limits keys now) (i : Nat) (csr : String) : Nat → Nat
  | 0 => 0
  | n + 1 => r.pollsFor i csr n + (r.effects n).countP ((r.state n).pollsFor i csr)

/-- A request is accepted for the session of a key, which then is neither released nor dropped until
some step, and all calls for the key that end until then are put off. -/
structure Undisturbed (r : History limits keys now) (a n : Nat) (key : String) (i : Nat)
    (csr : String) : Prop where
  accepted : ∃ c ∈ (r.state a).calls, c.session = i ∧ r.event a = .submitted c.id (.ok csr)
  registered : (r.state a).Registered key i
  unreleased : ∀ l, a ≤ l → l < n → r.event l ≠ .release key
  unevicted : ∀ l, a ≤ l → l < n → ¬r.Evicts l key i
  putOff : ∀ l, a ≤ l → l < n → (r.state l).PutsOff key (r.effects l)

theorem Undisturbed.mono (h : r.Undisturbed a n key i csr) (hmn : m ≤ n) :
    r.Undisturbed a m key i csr where
  accepted := h.accepted
  registered := h.registered
  unreleased l hal hlm := h.unreleased l hal (Nat.lt_of_lt_of_le hlm hmn)
  unevicted l hal hlm := h.unevicted l hal (Nat.lt_of_lt_of_le hlm hmn)
  putOff l hal hlm := h.putOff l hal (Nat.lt_of_lt_of_le hlm hmn)

theorem Undisturbed.first (h : r.Undisturbed a n key i csr) (han : a < n) :
    ∃ q : r.Request a i, ∃ polls, (r.state (a + 1)).Pends key i csr
    (r.state a).now polls q.pair.privatePem ∧
      r.pollsFor i csr (a + 1) = r.pollsFor i csr a + polls := by
  obtain ⟨c, hc, rfl, submitted⟩ := h.accepted
  have step := r.step a
  rw [submitted] at step
  obtain ⟨b, hb, hid, move, moves, hstate, heffects⟩ := step.of_call rfl
  obtain rfl := (r.orderly a).eq_of_id hb hc hid
  have requesting : ((r.state a).sessions b.session).state = .requesting := by
    cases moves with
    | accepted phase | abandoned phase => exact (r.orderly a).requesting hb phase
  obtain ⟨q, stored, _⟩ := (r.traced a b.session).requesting requesting
  have putOff := h.putOff a (Nat.le_refl a) han
  rw [heffects] at putOff
  have registered : (r.state (a + 1)).Registered key b.session :=
    hstate ▸ moves.registered hb putOff h.registered
  have polled : (r.state a).pollsFor b.session csr (.poll b.id csr) = true := by
    simp [(r.orderly a).pollsFor hb]
  refine ⟨q, (r.effects a).countP ((r.state a).pollsFor b.session csr), ⟨registered, ?_⟩, rfl⟩
  rw [hstate, after_session, heffects]
  cases moves with
  | accepted => simp [after, Move.session, stored, polled]
  | abandoned => simp [after, finish, Move.session, stored, System.pollsFor]

theorem Undisturbed.pends (h : r.Undisturbed a n key i csr) (han : a < n) :
    ∃ q : r.Request a i, ∃ polls, (r.state n).Pends key i csr
    (r.state a).now polls q.pair.privatePem ∧
      r.pollsFor i csr n = r.pollsFor i csr a + polls := by
  induction han with
  | refl => exact h.first (Nat.lt_succ_self a)
  | @step n han ih =>
      obtain ⟨q, polls, pends, count⟩ := ih (h.mono (Nat.le_succ n))
      have hle : a ≤ n := Nat.le_of_lt han
      refine ⟨q, _, pends.next (r.orderly n) (r.step n) (h.unreleased n hle (Nat.lt_succ_self n)) ?_
        (h.putOff n hle (Nat.lt_succ_self n)), ?_⟩
      · intro request entry started hne hk dropped gone
        obtain rfl : entry.session = i := Registered.unique ⟨entry, hk, rfl⟩ pends.registered
        exact h.unevicted n hle (Nat.lt_succ_self n) (evicts_of_dropped hk started hne dropped gone)
      · rw [pollsFor, count, Nat.add_assoc]

/-- While calls for a key are put off, the session of the key keeps the request that was accepted
for it at step `a`, with the time at which it was accepted and the key that it was made with, and
has counted the polls of it. A call for the key that starts then gets this session. When it does, it
polls the request at once and submits none, and it times out when the time since step `a` is
over. -/
theorem pending_resumes (r : History limits keys now) (a n i : Nat) (key csr : String) (han : a < n)
    (h : r.Undisturbed a n key i csr) :
    ∃ q : r.Request a i, ∃ polls,
      (r.state n).Registered key i ∧
      (r.state n).sessions i = ⟨.polling csr (r.state a).now polls,
        ⟨some q.pair.privatePem, none⟩⟩ ∧
      r.pollsFor i csr n = r.pollsFor i csr a + polls ∧
      (∀ l, a ≤ l → l < n → ∀ request, r.event l = .start request → request.key = key →
        ∀ c ∈ (r.state n).calls, c.id = (r.state l).callsMade → c.session = i) ∧
      ∀ c ∈ (r.state n).calls, c.session = i → r.event n = .acquire c.id →
        r.effects n = [.poll c.id csr] ∧ (∀ m signing, .submit c.id signing ∉ r.effects m) ∧
        r.Awaits (n + 1) c.id (r.state n).now (r.state a).now ∧
        ∀ m > n, r.event m = .polled c.id (.ok none) →
          ((∃ key seconds, .answer c.id (.error (.timeout key seconds)) ∈ r.effects m) ↔
            (r.state a).now + limits.timeout ≤ (r.state m).now) := by
  obtain ⟨q, polls, pends, count⟩ := h.pends han
  refine ⟨q, polls, pends.registered, pends.session, count, ?_, ?_⟩
  · rintro l hal hln request started rfl c hc hid
    have hne : a ≠ l := by
      rintro rfl
      obtain ⟨_, _, _, submitted⟩ := h.accepted
      cases submitted.symm.trans started
    obtain ⟨_, _, ⟨⟨entry, hk, he⟩, _⟩, _⟩ :=
      (h.mono (Nat.le_of_lt hln)).pends (Nat.lt_of_le_of_ne hal hne)
    rw [(assigned started hln).session c hc hid, sessionFor_eq hk, he]
  · rintro c hc rfl acquires
    have step := r.step n
    rw [acquires] at step
    obtain ⟨heffects, hmem, hstate⟩ :=
      step.resumes (r.orderly n) hc (congrArg Session.state pends.session)
    have awaits : r.Awaits (n + 1) c.id (r.state n).now (r.state a).now :=
      ⟨_, hmem, rfl, rfl, csr, _, hstate⟩
    refine ⟨heffects, fun m signing hsubmit => ?_, awaits,
      fun m hnm polled => awaits.timeout_iff hnm polled⟩
    obtain ⟨b, _, _, hid, _, moves, _⟩ := (r.step m).of_submit hsubmit
    have hm : r.event m = .acquire c.id := hid ▸ moves.of_submit.2.1
    obtain rfl := acquires_once hm acquires
    rw [heffects] at hsubmit
    cases List.mem_singleton.1 hsubmit

/-- A call is cancelled during the submission, another while it waits, and a third polls in vain for
as long as it may. -/
def resumption : History { pollWindow := 0 } (fun _ => ⟨"", [], fun _ => []⟩) 0 := ofEvents
  [.start ⟨"a", "a", ""⟩, .acquire 0, .cancel 0, .submitted 0 (.ok "csr"), .start ⟨"a", "a", ""⟩,
    .start ⟨"a", "a", ""⟩, .cancel 2, .acquire 1, .polled 1 (.ok none),
      .start ⟨"a", "a", ""⟩, .acquire 3]

theorem resumption_undisturbed : resumption.Undisturbed 3 10 "a" 0 "csr" where
  accepted := ⟨⟨0, ⟨"a", "a", ""⟩, 0, .submitting 0, true⟩, .head _, rfl, rfl⟩
  registered := ⟨⟨0, 0⟩, rfl, rfl⟩
  unreleased l _ _ h := by
    have hmem : resumption.event l ∈ _ :: _ := Run.event_ofEvents _ (fun _ => rfl) _ l
    rw [h] at hmem
    simp at hmem
  unevicted l _ _ h := by
    obtain ⟨request, started, hne⟩ := h.lookup
    have hmem : resumption.event l ∈ _ :: _ := Run.event_ofEvents _ (fun _ => rfl) _ l
    rw [started] at hmem
    obtain rfl : request = ⟨"a", "a", ""⟩ := by simpa using hmem
    exact hne rfl
  putOff l _ hl c _ _ answer h := by
    have off : ∀ l < 10, (resumption.effects l).all Effect.putsOff = true := by decide
    exact List.all_eq_true.1 (off l hl) _ h

theorem resumption_resumes :
    resumption.Undisturbed 3 10 "a" 0 "csr" ∧
      (∃ polls, resumption.pollsFor 0 "csr" 10 = resumption.pollsFor 0 "csr" 3 + polls ∧
        ∃ store, (resumption.state 10).sessions 0 = ⟨.polling "csr" 0 polls, store⟩) ∧
      resumption.effects 10 = [.poll 3 "csr"] ∧
      ∀ m signing, .submit 3 signing ∉ resumption.effects m := by
  obtain ⟨q, polls, _, session, count, _, resumes⟩ :=
    pending_resumes resumption 3 10 0 "a" "csr" (by decide) resumption_undisturbed
  obtain ⟨heffects, unsubmitted, _⟩ :=
    resumes ⟨3, ⟨"a", "a", ""⟩, 0, .queued, false⟩ (.head _) rfl rfl
  exact ⟨resumption_undisturbed, ⟨polls, count, _, session⟩, heffects, unsubmitted⟩

end History

end HollowNode.Bootstrap
