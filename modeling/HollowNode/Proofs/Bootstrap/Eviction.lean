import HollowNode.Proofs.Bootstrap.Provenance
import HollowNode.Proofs.Bootstrap.SingleFlight
import HollowNode.Proofs.Settings

namespace HollowNode.Bootstrap

def Effect.delay? : Effect → Option Nat
  | .answer _ (.ok (.pending delay)) => some delay
  | .answer _ (.ok (.issued _)) | .answer _ (.error _) | .submit .. | .poll .. | .sleep .. => none

open HollowNode.Bootstrap.System

namespace History

variable {limits : Limits} {keys : Nat → Key.Pair} {now i l n : Nat} {key : String}
  {r : History limits keys now}

/-- Of the calls for a key that start before a step, the last starts at step `l`. -/
structure LastStart (r : History limits keys now) (l n : Nat) (key : String) : Prop where
  before : l < n
  started : ∃ request, r.event l = .start request ∧ request.key = key
  last : ∀ m, l < m → m < n → ∀ request, r.event m = .start request → request.key ≠ key

theorem LastStart.unique {m : Nat} (hl : r.LastStart l n key) (hm : r.LastStart m n key) :
    l = m := by
  have later {l m : Nat} (hl : r.LastStart l n key) (hm : r.LastStart m n key) : m ≤ l := by
    obtain ⟨request, started, hkey⟩ := hm.started
    exact Nat.le_of_not_lt fun hlm => hl.last m hlm hm.before request started hkey
  exact Nat.le_antisymm (later hm hl) (later hl hm)

theorem lastStart_of_get? {entry : Entry} (hk : (r.state n).registry.get? key = some entry) :
    ∃ l, r.LastStart l n key ∧ entry.lastUsed = (r.state l).now := by
  induction n with
  | zero =>
      rw [r.state_zero] at hk
      cases hk
  | succ n ih =>
      rcases (r.step n).get?_eq_some hk with ⟨request, started, hkey, used⟩ | ⟨hk, other⟩
      · refine ⟨n, ⟨Nat.lt_succ_self n, ⟨request, started, hkey⟩, fun m hnm hmn => ?_⟩, used⟩
        exact absurd hnm (Nat.not_lt.2 (Nat.le_of_lt_succ hmn))
      · obtain ⟨l, last, used⟩ := ih hk
        refine ⟨l,
          ⟨Nat.lt_succ_of_lt last.before, last.started, fun m hlm hmn request started => ?_⟩, used⟩
        rcases Nat.lt_succ_iff_lt_or_eq.1 hmn with hmn | rfl
        · exact last.last m hlm hmn request started
        · exact other request started

theorem LastStart.evicts_iff (last : r.LastStart l n key)
    (lookup : ∃ request, r.event n = .start request ∧ request.key ≠ key)
    (registered : (r.state n).Registered key i) (unheld : ∀ c ∈ (r.state n).calls, c.session ≠ i) :
    r.Evicts n key i ↔ (r.state l).now + limits.sessionTtl ≤ (r.state n).now := by
  constructor
  · intro h
    obtain ⟨request, started, hkey⟩ := last.started
    exact h.unused l last.before request started hkey
  · intro late
    obtain ⟨request, started, hne⟩ := lookup
    obtain ⟨entry, hk, rfl⟩ := registered
    obtain ⟨m, hm, used⟩ := lastStart_of_get? hk
    obtain rfl := last.unique hm
    have idle : (r.state n).inFlight entry.session = false := by simpa [inFlight] using unheld
    have dropped : (r.state n).stays limits entry = false := by
      simp only [stays, idle, Bool.false_or, decide_eq_false_iff_not]
      omega
    refine evicts_of_dropped hk started hne dropped ?_
    have step := r.step n
    rw [started] at step
    generalize r.state (n + 1) = s', r.effects n = fs at step
    cases step with
    | start => simp [get?_start, Ne.symm hne, hk, Option.filter, dropped]
    | move mem moves => cases moves

/-- Whenever a call for a key is told to come back, the next one for the key starts within the time
told. -/
def KeepsAppointments (r : History limits keys now) (key : String) : Prop :=
  ∀ p, ∀ c ∈ (r.state p).calls, c.request.key = key →
    ∀ delay, .answer c.id (.ok (.pending delay)) ∈ r.effects p →
    ∃ m > p, (∃ request, r.event m = .start request ∧ request.key = key) ∧
      (r.state m).now ≤ (r.state p).now + delay

/-- A session with a pending request is not dropped before the deadline of the request, unless the
request was accepted after the last call for the key had started, by more than the lifetime of
sessions exceeds the deadline. In that case it can be dropped although its caller has not missed an
appointment. -/
theorem eviction_bounds {lookup : String → Option String} {settings : Settings}
    (accepted : Settings.ofLookup lookup = .ok settings) (r : History settings.limits keys now)
    (key : String) (kept : r.KeepsAppointments key) (n i t polls : Nat) (csr : String)
    (pending : ((r.state n).sessions i).state = .polling csr t polls)
    (early : (r.state n).now < t + settings.limits.timeout) :
    (∀ l, r.LastStart l n key →
      t ≤ (r.state l).now + (settings.limits.sessionTtl - settings.limits.timeout) →
      ¬r.Evicts n key i) ∧
    (r.Evicts n key i → ∃ l a, r.LastStart l n key ∧ l < a ∧ a < n ∧
      (∃ caller, r.event a = .submitted caller (.ok csr) ∧ (r.state a).now = t) ∧
      (r.state l).now + (settings.limits.sessionTtl - settings.limits.timeout) < t ∧
      (r.state l).now + settings.limits.sessionTtl ≤ (r.state n).now ∧
      ∀ p, l < p → p < n → ∀ c ∈ (r.state p).calls, c.request.key = key →
        ∀ delay, .answer c.id (.ok (.pending delay)) ∈ r.effects p →
          (r.state n).now ≤ (r.state p).now + delay) := by
  have long := (Settings.limits_of_ofLookup accepted).2
  have late {l : Nat} (last : r.LastStart l n key) (h : r.Evicts n key i) :
      (r.state l).now + settings.limits.sessionTtl ≤ (r.state n).now :=
    (last.evicts_iff h.lookup h.before h.unheld).1 h
  refine ⟨fun l last soon h => ?_, fun h => ?_⟩
  · have := late last h
    omega
  · obtain ⟨entry, hk, _⟩ := h.before
    obtain ⟨l, last, _⟩ := lastStart_of_get? hk
    obtain ⟨q, hnow, _⟩ := (r.traced n i).polling csr t polls pending
    have hlate := late last h
    have hla : l < q.accepted := Nat.lt_of_not_le fun hal => by
      have := r.now_mono hal
      omega
    refine ⟨l, q.accepted, last, hla, q.till, ⟨q.caller.id, q.accepts, hnow⟩, by omega, hlate, ?_⟩
    intro p hlp hpn c hc hkey delay told
    obtain ⟨m, hpm, ⟨request, started, hm⟩, intime⟩ := kept p c hc hkey delay told
    -- The call that keeps the appointment does not start before this step.
    have hnm : n ≤ m := Nat.le_of_not_lt fun hmn =>
      last.last m (Nat.lt_trans hlp hpm) hmn request started hm
    exact Nat.le_trans (r.now_mono hnm) intime

def tight : Settings := { limits := ⟨9000, 10000, 0, 10000⟩ }

def tightLookup : String → Option String
  | "BOOTSTRAP_POLL_INTERVAL_SECS" => some "9"
  | "BOOTSTRAP_TIMEOUT_SECS" | "BOOTSTRAP_SESSION_TTL_SECS" => some "10"
  | "BOOTSTRAP_POLL_WINDOW_SECS" => some "0"
  | _ => none

theorem tight_accepted : Settings.ofLookup tightLookup = .ok tight := by rfl

/-- A submission takes two seconds. Half a second before the next call for the key another key is
looked up. The next submission takes no time, and the other key is looked up again when the call
after it is due. -/
def slowSubmission : History tight.limits (fun _ => ⟨"", [], fun _ => []⟩) 0 := ofEvents
  [.start ⟨"a", "a", ""⟩, .acquire 0, .advance 2000, .submitted 0 (.ok "first"),
    .polled 0 (.ok none), .advance 8500, .start ⟨"b", "b", ""⟩, .advance 500, .start ⟨"a", "a", ""⟩,
    .acquire 2, .submitted 2 (.ok "second"), .polled 2 (.ok none), .advance 9000,
    .start ⟨"b", "b", ""⟩, .start ⟨"a", "a", ""⟩, .cancel 4]

theorem slowSubmission_keepsAppointments : slowSubmission.KeepsAppointments "a" := by
  intro p c _ _ delay told
  by_cases hp : p < 16
  · have due : ∀ p < 16, ∀ f ∈ slowSubmission.effects p, ∀ d ∈ f.delay?, (p = 4 ∨ p = 11) ∧
      d = 9000 := by decide
    obtain ⟨rfl | rfl, rfl⟩ := due p hp _ told delay rfl
    · exact ⟨8, by decide, ⟨⟨"a", "a", ""⟩, rfl, rfl⟩, by decide⟩
    · exact ⟨14, by decide, ⟨⟨"a", "a", ""⟩, rfl, rfl⟩, by decide⟩
  · -- Nothing happens any more.
    obtain ⟨d, _, m, moves, _⟩ := (slowSubmission.step p).of_effect told
    have idle : slowSubmission.event p = .advance 0 :=
      Run.event_ofEvents_of_le _ (fun _ => rfl) _ (Nat.le_of_not_lt hp)
    rw [idle] at moves
    cases moves

theorem slowSubmission_evicts : slowSubmission.Evicts 6 "a" 0 :=
  @evicts_of_dropped _ _ _ slowSubmission 6 "a" ⟨0, 0⟩ ⟨"b", "b", ""⟩ rfl rfl (by decide) rfl rfl

theorem slowSubmission_dropped :
    Settings.ofLookup tightLookup = .ok tight ∧ slowSubmission.KeepsAppointments "a" ∧
      ((slowSubmission.state 6).sessions 0).state = .polling "first" 2000 1 ∧
      (slowSubmission.state 6).now < 2000 + tight.limits.timeout ∧ slowSubmission.Evicts 6 "a" 0 ∧
      ∃ signing, .submit 2 signing ∈ slowSubmission.effects 9 :=
  ⟨tight_accepted, slowSubmission_keepsAppointments,
    rfl, by decide, slowSubmission_evicts, _, .head _⟩

theorem promptSubmission_kept :
    ¬slowSubmission.Evicts 13 "a" 2 ∧ ∃ l, slowSubmission.LastStart l 6 "a" ∧
    (slowSubmission.state l).now < 2000 := by
  have kept := slowSubmission_keepsAppointments
  obtain ⟨l, last, used⟩ := @lastStart_of_get? _ _ _ 13 "a" slowSubmission ⟨2, 11000⟩ rfl
  have prompt :=
    (eviction_bounds tight_accepted slowSubmission "a" kept 13 2 11000 1 "second" rfl (by decide)).1
  have slow :=
    (eviction_bounds tight_accepted slowSubmission "a" kept 6 0 2000 1 "first" rfl (by decide)).2
  obtain ⟨m, _, first, _, _, _, before, _⟩ := slow slowSubmission_evicts
  exact ⟨prompt l last (Nat.le_trans (Nat.le_of_eq used) (Nat.le_add_right _ _)), m, first, before⟩

end History

end HollowNode.Bootstrap
