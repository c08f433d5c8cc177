import HollowNode.Bootstrap.System
import HollowNode.Proofs.Bootstrap.Identity

namespace HollowNode.Bootstrap

/-- What a call does when something happens to it: it leaves its session in some state, it fails, it
submits a request for a session that may have been cleared before, it goes on in another phase, or
it notes that it is cancelled. -/
inductive Move
  | leave (session : Session) (answer : Answer)
  | fail (fault : Fault)
  | submit (session : Session)
  | go (session : Session) (phase : Phase) (effect : Effect)
  | note

def Limits.delay (limits : Limits) (now submittedAt : Nat) : Nat :=
  min limits.pollInterval (limits.timeout - (now - submittedAt))

def Phase.Busy : Phase → Prop
  | .submitting _ | .polling _ => True
  | .queued | .sleeping .. => False

def Phase.Fits : Phase → SessionState → Prop
  | .queued, _ => True
  | .submitting _, state => state = .requesting
  | .polling _, state | .sleeping .., state =>
    ∃ csr submittedAt polls, state = .polling csr submittedAt polls

def Session.Stored (session : Session) : Prop :=
  match session.state with
  | .idle | .failed _ => session.store = {}
  | .requesting | .polling .. => ∃ key, session.store = ⟨some key, none⟩
  | .issued identity => ∃ key certificate now, session.store = ⟨some key, some certificate⟩ ∧
      ClientIdentity.ofPem now certificate key = .ok identity

theorem Session.Stored.of_requesting {session : Session} (h : session.Stored)
    (held : session.state = .requesting) :
    ∃ key, session.store = ⟨some key, none⟩ := by simpa only [Stored, held] using h

theorem Session.Stored.of_polling {session : Session} (h : session.Stored) {csr : String}
    {submittedAt polls : Nat} (held : session.state = .polling csr submittedAt polls) :
    ∃ key, session.store = ⟨some key, none⟩ := by
  simpa only [Stored, held] using h

namespace System

variable {limits : Limits} {keys : Nat → Key.Pair} {s s' : System} {c d : Call}
  {e : Event} {m : Move} {fs : List Effect}

def after (keys : Nat → Key.Pair) (s : System) (c : Call) : Move → System × List Effect
  | .leave session answer => (s.setSession c.session session).finish c answer
  | .fail fault => s.fail c fault
  | .submit session => (s.setSession c.session session).submit keys c
  | .go session phase effect => ((s.setSession c.session session).setPhase c.id phase, [effect])
  | .note =>
    ({ s with
      calls := s.calls.map fun d => if d.id = c.id then { d with cancelled := true } else d }, [])

inductive Moves (limits : Limits) (s : System) (c : Call) : Event → Move → Prop
  | reuse {identity} (next : s.isNext c) (held : (s.sessions c.session).state = .issued identity)
      (alive : identity.outlives s.now = true) :
      Moves limits s c (.acquire c.id) (.leave (s.sessions c.session) (.ok (.issued identity)))
  | renew {identity} (next : s.isNext c) (held : (s.sessions c.session).state = .issued identity)
      (dead : identity.outlives s.now = false) : Moves limits s c (.acquire c.id) (.submit {})
  | request (next : s.isNext c) (held : (s.sessions c.session).state = .idle) :
      Moves limits s c (.acquire c.id) (.submit (s.sessions c.session))
  | turnAway {reason} (next : s.isNext c) (held : (s.sessions c.session).state = .failed reason) :
      Moves limits s c (.acquire c.id)
        (.leave (s.sessions c.session) (.error (.failed c.request.key reason)))
  | resume {csr submittedAt polls} (next : s.isNext c)
      (held : (s.sessions c.session).state = .polling csr submittedAt polls) :
      Moves limits s c (.acquire c.id)
        (.go { s.sessions c.session with state := .polling csr submittedAt (polls + 1) }
          (.polling s.now) (.poll c.id csr))
  | refused {start fault} (phase : c.phase = .submitting start) :
      Moves limits s c (.submitted c.id (.error fault))
        (.fail (.failed c.request.key fault.message))
  | accepted {start csr} (phase : c.phase = .submitting start) (going : c.cancelled = false) :
      Moves limits s c (.submitted c.id (.ok csr))
        (.go { s.sessions c.session with state := .polling csr s.now 1 } (.polling start)
          (.poll c.id csr))
  | abandoned {start csr} (phase : c.phase = .submitting start) (stopped : c.cancelled = true) :
      Moves limits s c (.submitted c.id (.ok csr))
        (.leave { s.sessions c.session with state := .polling csr s.now 0 }
          (.error (.cancelled c.request.key)))
  | unreachable {start fault} (phase : c.phase = .polling start) :
      Moves limits s c (.polled c.id (.error fault)) (.fail (.failed c.request.key fault.message))
  | issue {start key text identity} (phase : c.phase = .polling start)
      (stored : (s.sessions c.session).store = ⟨some key, none⟩)
      (usable : ClientIdentity.ofPem s.now text key = .ok identity) :
      Moves limits s c (.polled c.id (.ok (some text)))
        (.leave ⟨.issued identity, ⟨some key, some text⟩⟩ (.ok (.issued identity)))
  | unusable {start key text fault} (phase : c.phase = .polling start)
      (stored : (s.sessions c.session).store = ⟨some key, none⟩)
      (unusable : ClientIdentity.ofPem s.now text key = .error fault) :
      Moves limits s c (.polled c.id (.ok (some text)))
        (.fail (.failed c.request.key fault.message))
  | timeOut {start csr submittedAt polls} (phase : c.phase = .polling start)
      (held : (s.sessions c.session).state = .polling csr submittedAt polls)
      (late : limits.timeout - (s.now - submittedAt) = 0) :
      Moves limits s c (.polled c.id (.ok none))
        (.fail (.timeout c.request.key (limits.timeout / 1000)))
  | overrun {start csr submittedAt polls} (phase : c.phase = .polling start)
      (held : (s.sessions c.session).state = .polling csr submittedAt polls)
      (early : limits.timeout - (s.now - submittedAt) ≠ 0)
      (long : durationLimit ≤ s.now - start + limits.delay s.now submittedAt) :
      Moves limits s c (.polled c.id (.ok none))
        (.leave (s.sessions c.session) (.error (.outOfRange c.request.key)))
  | pend {start csr submittedAt polls} (phase : c.phase = .polling start)
      (held : (s.sessions c.session).state = .polling csr submittedAt polls)
      (early : limits.timeout - (s.now - submittedAt) ≠ 0)
      (long : limits.pollWindow < s.now - start + limits.delay s.now submittedAt) :
      Moves limits s c (.polled c.id (.ok none))
        (.leave (s.sessions c.session) (.ok (.pending (limits.delay s.now submittedAt))))
  | stop {start csr submittedAt polls} (phase : c.phase = .polling start)
      (held : (s.sessions c.session).state = .polling csr submittedAt polls)
      (stopped : c.cancelled = true)
      (early : limits.timeout - (s.now - submittedAt) ≠ 0) :
      Moves limits s c (.polled c.id (.ok none))
        (.leave (s.sessions c.session) (.error (.cancelled c.request.key)))
  | sleep {start csr submittedAt polls} (phase : c.phase = .polling start)
      (held : (s.sessions c.session).state = .polling csr submittedAt polls)
      (going : c.cancelled = false)
      (early : limits.timeout - (s.now - submittedAt) ≠ 0)
      (short : s.now - start + limits.delay s.now submittedAt ≤ limits.pollWindow) :
      Moves limits s c (.polled c.id (.ok none))
        (.go (s.sessions c.session) (.sleeping start (s.now + limits.delay s.now submittedAt))
          (.sleep c.id (s.now + limits.delay s.now submittedAt)))
  | wake {start wakeAt csr submittedAt polls} (phase : c.phase = .sleeping start wakeAt)
      (due : wakeAt ≤ s.now)
      (held : (s.sessions c.session).state = .polling csr submittedAt polls) :
      Moves limits s c (.wake c.id)
        (.go { s.sessions c.session with state := .polling csr submittedAt (polls + 1) }
          (.polling start) (.poll c.id csr))
  | withdraw (idle : ¬c.phase.Busy) :
      Moves limits s c (.cancel c.id)
        (.leave (s.sessions c.session) (.error (.cancelled c.request.key)))
  | note (busy : c.phase.Busy) : Moves limits s c (.cancel c.id) .note

/-- The steps of a system in good order. -/
inductive Step (limits : Limits) (keys : Nat → Key.Pair) (s : System) :
    Event → System → List Effect → Prop
  | start (request : Csr.IdentityRequest) : Step limits keys s (.start request)
      (s.start limits request) []
  | release (key : String) : Step limits keys s (.release key) (s.release key) []
  | advance (milliseconds : Nat) :
      Step limits keys s (.advance milliseconds) { s with now := s.now + milliseconds } []
  | move {c : Call} {e : Event} {m : Move} (mem : c ∈ s.calls) (moves : Moves limits s c e m) :
      Step limits keys s e (s.after keys c m).1 (s.after keys c m).2

theorem effects_poll (s : System) (c : Call) (start : Nat) : (s.poll c start).2.length ≤ 1 := by
  unfold poll
  dsimp only
  split
  · split <;> exact Nat.le_refl 1
  · exact Nat.le_refl 1

theorem effects_acquire (s : System) (c : Call) : (s.acquire keys c).2.length ≤ 1 := by
  unfold acquire
  split
  · split <;> exact Nat.le_refl 1
  · exact Nat.le_refl 1
  · exact effects_poll ..
  · exact Nat.le_refl 1
  · exact Nat.le_refl 1

theorem effects_submitted (s : System) (c : Call) (start : Nat) (answer : Except Csr.Fault String) :
    (s.submitted c start answer).2.length ≤ 1 := by
  cases answer with
  | error fault => exact Nat.le_refl 1
  | ok csr => exact effects_poll ..

theorem effects_wait (s : System) (c : Call) (start submittedAt : Nat) :
    (s.wait limits c start submittedAt).2.length ≤ 1 := by
  unfold wait
  dsimp only
  repeat' split
  all_goals exact Nat.le_refl 1

theorem effects_polled (s : System) (c : Call) (start : Nat)
    (answer : Except Csr.Fault (Option String)) :
    (s.polled limits c start answer).2.length ≤ 1 := by
  cases answer with
  | error fault => exact Nat.le_refl 1
  | ok certificate =>
      unfold polled
      dsimp only
      split
      · exact Nat.le_refl 1
      · exact effects_wait ..
      · exact Nat.le_refl 1

theorem effects_cancel (s : System) (c : Call) : (s.cancel c).2.length ≤ 1 := by
  unfold cancel
  split
  · exact Nat.le_refl 1
  · exact Nat.le_refl 1
  · exact Nat.zero_le 1
  · exact Nat.zero_le 1

theorem effects_step (h : s.step limits keys e = some (s', fs)) : fs.length ≤ 1 := by
  have of_some {r : System × List Effect} (hr : some r = some (s', fs)) (hone : r.2.length ≤ 1) :
      fs.length ≤ 1 := by
    cases hr
    exact hone
  cases e with
  | start | release | advance =>
      cases h
      exact Nat.zero_le 1
  | acquire id =>
      obtain ⟨c, -, h⟩ := Option.bind_eq_some_iff.1 h
      split at h
      · exact of_some h (effects_acquire s c)
      · cases h
  | submitted id answer =>
      obtain ⟨c, -, h⟩ := Option.bind_eq_some_iff.1 h
      split at h
      · exact of_some h (effects_submitted s c _ answer)
      · cases h
  | polled id answer =>
      obtain ⟨c, -, h⟩ := Option.bind_eq_some_iff.1 h
      split at h
      · exact of_some h (effects_polled s c _ answer)
      · cases h
  | wake id =>
      obtain ⟨c, -, h⟩ := Option.bind_eq_some_iff.1 h
      split at h
      · split at h
        · exact of_some h (effects_poll s c _)
        · cases h
      · cases h
  | cancel id =>
      obtain ⟨c, -, h⟩ := Option.bind_eq_some_iff.1 h
      exact of_some h (effects_cancel s c)

end System

end HollowNode.Bootstrap
