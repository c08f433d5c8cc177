import HollowNode.Proofs.Bootstrap.Eviction
import HollowNode.Proofs.Bootstrap.Seen
import Mathlib.Data.Nat.Nth

namespace HollowNode.Bootstrap

def Effect.renumber (f : Nat → Nat) : Effect → Effect
  | submit call request => submit (f call) request
  | poll call csr => poll (f call) csr
  | sleep call wakeAt => sleep (f call) wakeAt
  | answer call a => answer (f call) a

theorem View.sees_iff {v : View} {e : Event} {id : Nat} (he : e.call? = some id) :
    v.Sees e ↔ v.calls id := by
  cases e with
  | start | release | advance => cases he
  | acquire | submitted | polled | wake | cancel => cases he; exact Iff.rfl

theorem Effect.Alike.eq {hidden : Prop} {f : Nat → Nat} {e g : Effect} (h : e.Alike hidden f g)
    (shown : ¬hidden) : g = e.renumber f := by
  cases h with
  | submit call same => rw [same.eq shown]; rfl
  | answer call alike => rw [alike.eq shown]; rfl
  | poll | sleep => rfl

open HollowNode.Bootstrap.System

namespace History

variable {limits : Limits} {keys : Nat → Key.Pair} {now n : Nat} {key : String}
  {r : History limits keys now}

def CallFor (r : History limits keys now) (key : String) (id : Nat) : Prop :=
  ∃ n request, r.event n = .start request ∧ request.key = key ∧ (r.state n).callsMade = id

def SessionFor (r : History limits keys now) (key : String) (i : Nat) : Prop :=
  ∃ n request, r.event n = .start request ∧ request.key = key ∧
    (r.state n).registry.get? key = none ∧ (r.state n).sessionsMade = i

def PairFor (r : History limits keys now) (key : String) (g : Nat) : Prop :=
  ∃ n c, r.Submits n c key ∧ (r.state n).generated = g

def view (r : History limits keys now) (key : String) : View :=
  ⟨(· = key), r.CallFor key, r.SessionFor key, r.PairFor key⟩

/-- Which of the calls for a key it is that has a number. -/
noncomputable def number (r : History limits keys now) (key : String) (id : Nat) : Nat :=
  (r.view key).call id

noncomputable def pairsFor (r : History limits keys now) (key : String) (j : Nat) : Key.Pair :=
  keys (Nat.nth (r.PairFor key) j)

open Classical in
/-- What happens at a step, as far as it is about a key. -/
noncomputable def eventFor (r : History limits keys now) (key : String) (n : Nat) : Event :=
  if (r.view key).Sees (r.event n) then (r.event n).renumber (r.number key) else .advance 0

noncomputable def effectsFor (r : History limits keys now) (key : String) (n : Nat) : List Effect :=
  let about (f : Effect) := ((r.state n).call? f.call).any (·.request.key = key)
  ((r.effects n).filter about).map (Effect.renumber (r.number key))

/-- Whenever another key is looked up, some call has the session of the key, or the last call for
the key started a shorter time ago than sessions live. -/
def Kept (r : History limits keys now) (key : String) : Prop :=
  ∀ n request, r.event n = .start request → request.key ≠ key → ∀ i, (r.state n).Registered key i →
    (∃ c ∈ (r.state n).calls, c.request.key = key ∧ c.session = i) ∨
      ∀ l, r.LastStart l n key → (r.state n).now < (r.state l).now + limits.sessionTtl

theorem callFor_iff {request : Csr.IdentityRequest} (started : r.event n = .start request) :
    r.CallFor key (r.state n).callsMade ↔ request.key = key := by
  have starts {m : Nat} {request : Csr.IdentityRequest} (started : r.event m = .start request) :
      (r.state m).callsMade < (r.state (m + 1)).callsMade := by
    have step := r.step m
    rw [started] at step
    generalize r.state (m + 1) = s', r.effects m = fs at step
    cases step with
    | start => simp
    | move mem moves => cases moves
  constructor
  · rintro ⟨m, other, hm, hkey, h⟩
    obtain rfl := r.eq_of_lt (f := (·.callsMade)) (fun n => (r.step n).callsMade_le) (starts hm)
      (starts started) h
    cases hm.symm.trans started
    exact hkey
  · exact fun hkey => ⟨n, request, started, hkey, rfl⟩

theorem sessionFor_iff {request : Csr.IdentityRequest} (started : r.event n = .start request)
    (hk : (r.state n).registry.get? request.key = none) :
    r.SessionFor key (r.state n).sessionsMade ↔ request.key = key := by
  have made {m : Nat} {request : Csr.IdentityRequest} (started : r.event m = .start request)
      (hk : (r.state m).registry.get? request.key = none) :
      (r.state m).sessionsMade < (r.state (m + 1)).sessionsMade := by
    have step := r.step m
    rw [started] at step
    generalize r.state (m + 1) = s', r.effects m = fs at step
    cases step with
    | start => simp [start_sessionsMade, hk]
    | move mem moves => cases moves
  constructor
  · rintro ⟨m, other, hm, rfl, hnone, h⟩
    obtain rfl :=
      r.eq_of_lt (f := (·.sessionsMade)) (fun n => (r.step n).sessionsMade_le) (made hm hnone)
      (made started hk) h
    cases hm.symm.trans started
    rfl
  · rintro rfl
    exact ⟨n, request, started, rfl, hk, rfl⟩

theorem pairFor_iff {c : Call} {request : Csr.SigningRequest} (hc : c ∈ (r.state n).calls)
    (submits : .submit c.id request ∈ r.effects n) : r.PairFor key (r.state n).generated ↔
    c.request.key = key := by
  obtain ⟨d, hd, _, hid, rfl, _⟩ := (r.step n).of_submit submits
  obtain rfl := (r.orderly n).eq_of_id hd hc hid
  constructor
  · rintro ⟨m, b, ⟨_, other, hother, hkey⟩, h⟩
    obtain rfl := r.generated_injective hother submits h
    obtain ⟨_, _, _, _, _, single, _⟩ := (r.step m).of_effect submits
    rw [single] at hother
    obtain ⟨-, rfl⟩ := Effect.submit.inj (List.mem_singleton.1 hother)
    exact hkey
  · rintro rfl
    exact ⟨n, d, ⟨hc, _, submits, rfl⟩, rfl⟩

theorem admits {request : Csr.IdentityRequest} (started : r.event n = .start request) :
    (r.view key).Admits (r.state n) request where
  call := (callFor_iff started).trans decide_eq_true_iff.symm
  session hk := (sessionFor_iff started hk).trans decide_eq_true_iff.symm

theorem covers (r : History limits keys now) (key : String) (n : Nat) :
    (r.view key).Covers (r.state n) := by
  induction n with
  | zero =>
      rw [r.state_zero]
      exact ⟨nofun, nofun⟩
  | succ n ih => exact ih.next (r.orderly n) (r.step n) fun request started => admits started

theorem Kept.stays (kept : r.Kept key) {request : Csr.IdentityRequest}
    (started : r.event n = .start request) (other : request.key ≠ key) {entry : Entry}
    (hk : (r.state n).registry.get? key = some entry) : (r.state n).stays limits entry = true := by
  rcases kept n request started other entry.session ⟨entry, hk, rfl⟩ with ⟨c, hc, _, hci⟩ | recent
  · have used : (r.state n).inFlight entry.session = true :=
      List.any_eq_true.2 ⟨c, hc, by simp [hci]⟩
    simp [System.stays, used]
  · obtain ⟨l, last, used⟩ := lastStart_of_get? hk
    have := recent l last
    have := r.now_mono (Nat.le_of_lt last.before)
    simp only [System.stays, Bool.or_eq_true, decide_eq_true_eq]
    omega

theorem pair_eq (r : History limits keys now) (key : String) (g : Nat)
    (drawn : (r.view key).pairs g) :
    SamePair False (keys g) (r.pairsFor key ((r.view key).pair g)) := by
  have hg : Nat.nth (r.PairFor key) ((r.view key).pair g) = g :=
    open Classical in Nat.nth_count drawn
  rw [pairsFor, hg]

theorem sees_iff_of_effect {f : Effect} (hf : f ∈ r.effects n) :
    ((r.state n).call? f.call).any (·.request.key = key) = true ↔
    (r.view key).Sees (r.event n) := by
  obtain ⟨c, hc, m, moves, -, -, single⟩ := (r.step n).of_effect hf
  have hcall : f.call = c.id := moves.effects_call f (single ▸ List.mem_singleton_self f)
  rw [View.sees_iff moves.call?_event, hcall, (r.orderly n).call?_eq hc,
    ((r.covers key n).call c hc).1]
  rfl

theorem effectsFor_of_sees (sees : (r.view key).Sees (r.event n)) :
    r.effectsFor key n = (r.effects n).map (Effect.renumber (r.number key)) := by
  rw [effectsFor, List.filter_eq_self.2 fun f hf => (sees_iff_of_effect hf).2 sees]

theorem effectsFor_of_not_sees (unseen : ¬(r.view key).Sees (r.event n)) :
    r.effectsFor key n = [] := by
  rw [effectsFor, List.filter_eq_nil_iff.2 fun f hf => mt (sees_iff_of_effect hf).1 unseen,
    List.map_nil]

theorem Kept.next (kept : r.Kept key) {t : System} (h : (r.view key).Shows False (r.state n) t) :
    ∃ t', t.step limits (r.pairsFor key) (r.eventFor key n) = some (t', r.effectsFor key n) ∧
      (r.view key).Shows False (r.state (n + 1)) t' := by
  have covers := r.covers key n
  have drawn (id : Nat) (request : Csr.SigningRequest)
      (submits : .submit id request ∈ r.effects n) :
      (r.view key).pairs (r.state n).generated ↔ (r.view key).Sees (r.event n) := by
    obtain ⟨c, hc, _, rfl, _, moves, _⟩ := (r.step n).of_submit submits
    rw [View.sees_iff moves.call?_event, (covers.call c hc).1]
    exact (pairFor_iff hc submits).trans decide_eq_true_iff.symm
  by_cases sees : (r.view key).Sees (r.event n)
  · have hrel := h.step limits covers sees (r.pair_eq key)
    rw [r.step_eq n] at hrel
    rw [eventFor, if_pos sees, effectsFor_of_sees sees]
    change Option.Rel _ _
      (t.step limits (r.pairsFor key) ((r.event n).renumber (r.number key))) at hrel
    generalize t.step limits (r.pairsFor key) ((r.event n).renumber (r.number key)) = next at hrel
    cases hrel with
    | @some _ q agrees =>
        have after := agrees (fun _ => admits) fun id request submits =>
          (drawn id request submits).2 sees
        have same := after.effects.imp fun f g alike => (alike.eq not_false).symm
        rw [← List.forall₂_map_left_iff, List.forall₂_eq_eq_eq] at same
        exact ⟨q.1, congrArg (fun effects => some (q.1, effects)) same.symm, after.system⟩
  · rw [eventFor, if_neg sees, effectsFor_of_not_sees sees]
    refine ⟨t, rfl, h.step_other covers (r.step n) sees (fun _ => admits) ?_ ?_⟩
    · exact fun id request submits => mt (drawn id request submits).1 sees
    · intro request started k entry hk hentry
      obtain rfl : k = key := of_decide_eq_true hk
      refine kept.stays started (fun hkey => sees ?_) hentry
      rw [started]
      exact decide_eq_true hkey

theorem session?_eq {v : View} {s t : System} (h : v.Shows False s t) (covers : v.Covers s)
    (hkey : v.keys key = true) : t.session? key = s.session? key := by
  rw [System.session?, System.session?, h.entries key hkey]
  cases hk : s.registry.get? key with
  | none => rfl
  | some entry =>
      have alike := h.sessions entry.session ((covers.entry key entry hk).2 hkey)
      exact congrArg some (alike.eq not_false).symm

/-- If looking up other keys does not cost a key its session, then there is a run in which the calls
for other keys are left out and the calls for the key do the same at the same times, get the same,
and find the same session. At no time can anything else happen to them. -/
theorem keys_independent (r : History limits keys now) (key : String) (kept : r.Kept key) :
    ∃ alone : History limits (r.pairsFor key) now, (∀ n, alone.event n = r.eventFor key n) ∧
      ∀ n, alone.effects n = r.effectsFor key n ∧ (alone.state n).now = (r.state n).now ∧
        (alone.state n).session? key = (r.state n).session? key ∧
        ∀ e, (r.view key).Sees e →
          ((alone.state n).step limits (r.pairsFor key) (e.renumber (r.number key))).isSome =
            ((r.state n).step limits keys e).isSome := by
  have first : (r.view key).Shows False (r.state 0) ({ now } : System) := by
    rw [r.state_zero]
    exact View.shows_initial _ _ now
  obtain ⟨alone, events, shows⟩ :=
    Run.exists_of_events (System.step limits (r.pairsFor key)) (r.eventFor key)
    (P := fun n t => (r.view key).Shows False (r.state n) t) first fun n t h =>
    (kept.next h).imp fun t' next => ⟨_, next⟩
  refine ⟨alone, events, fun n => ⟨?_, (shows n).now, ?_, fun e sees => ?_⟩⟩
  · obtain ⟨t', next, -⟩ := kept.next (shows n)
    rw [← events n, alone.step_eq n] at next
    exact (Prod.mk.inj (Option.some.inj next)).2
  · exact session?_eq (shows n) (r.covers key n) (decide_eq_true rfl)
  · exact View.isSome_of_rel ((shows n).step limits (r.covers key n) sees (r.pair_eq key))

/-- A call for another key starts first, is denied, and comes again while a certificate is asked
for. -/
def neighbours : History { pollWindow := 0 } (fun _ => ⟨"", [], fun _ => []⟩) 0 := ofEvents
  [.start ⟨"b", "b", ""⟩, .start ⟨"a", "a", ""⟩, .acquire 1, .submitted 1 (.ok "csr"), .acquire 0,
    .submitted 0 (.error (.denied "no")), .start ⟨"b", "b", ""⟩, .polled 1 (.ok none)]

theorem neighbours_kept : neighbours.Kept "a" := by
  intro n request started other i registered
  by_cases hn : n < 8
  · have starts : ∀ n < 8, (neighbours.event n matches .start _) → n = 0 ∨ n = 1 ∨ n = 6 := by
      decide
    obtain ⟨entry, hk, rfl⟩ := registered
    rcases starts n hn (by rw [started]) with rfl | rfl | rfl
    · cases hk
    · have first : neighbours.event 1 = .start ⟨"a", "a", ""⟩ := rfl
      cases first.symm.trans started
      exact absurd rfl other
    · have held : (neighbours.state 6).registry.get? "a" = some ⟨1, 0⟩ := rfl
      cases held.symm.trans hk
      exact .inl ⟨⟨1, ⟨"a", "a", ""⟩, 1, .polling 0, false⟩, .head _, rfl, rfl⟩
  · -- Nothing happens any more.
    have idle : neighbours.event n = .advance 0 :=
      Run.event_ofEvents_of_le _ (fun _ => rfl) _ (Nat.le_of_not_lt hn)
    cases idle.symm.trans started

theorem neighbours_independent :
    neighbours.Kept "a" ∧ ∃ alone : History { pollWindow := 0 } (neighbours.pairsFor "a") 0,
      (∀ n, alone.event n = neighbours.eventFor "a" n) ∧
      ∀ n, alone.effects n = neighbours.effectsFor "a" n := by
  obtain ⟨alone, events, same⟩ := keys_independent neighbours "a" neighbours_kept
  exact ⟨neighbours_kept, alone, events, fun n => (same n).1⟩

end History

end HollowNode.Bootstrap
