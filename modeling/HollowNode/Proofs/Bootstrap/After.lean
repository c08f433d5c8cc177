import HollowNode.Proofs.Bootstrap.Order

namespace HollowNode.Bootstrap

def Move.session (keys : Nat → Key.Pair) (s : System) (c : Call) : Move → Session
  | leave session _ | go session _ _ => session
  | fail fault => ⟨.failed fault.message, {}⟩
  | submit session => ⟨.requesting, session.store.setPrivateKey (keys s.generated).privatePem⟩
  | note => s.sessions c.session

/-- A call after a move of it, unless it ends. -/
def Move.call? (s : System) (c : Call) : Move → Option Call
  | leave .. | fail _ => none
  | submit _ => some { c with phase := .submitting s.now }
  | go _ phase _ => some { c with phase }
  | note => some { c with cancelled := true }

def Move.Fails : Move → Prop
  | fail _ => True
  | leave .. | submit _ | go .. | note => False

namespace System

variable {limits : Limits} {keys : Nat → Key.Pair} {s s' : System} {c d : Call}
  {e : Event} {m : Move} {fs : List Effect} {i : Nat} {key : String}

@[simp]
theorem after_now : (s.after keys c m).1.now = s.now := by cases m <;> rfl

@[simp]
theorem after_sessionsMade :
    (s.after keys c m).1.sessionsMade = s.sessionsMade := by cases m <;> rfl

@[simp]
theorem after_callsMade : (s.after keys c m).1.callsMade = s.callsMade := by cases m <;> rfl

theorem after_sessions (i : Nat) :
    (s.after keys c m).1.sessions i = if i = c.session then m.session keys s c
      else s.sessions i := by
  cases m with
  | leave | fail | go => rfl
  | submit session =>
      by_cases h : i = c.session <;>
        simp [after, submit, setSession, setPhase, Move.session, h]
  | note => by_cases h : i = c.session <;> simp [after, Move.session, h]

theorem after_session : (s.after keys c m).1.sessions c.session = m.session keys s c := by
  simp [after_sessions]

theorem after_sessions_of_ne (h : i ≠ c.session) :
    (s.after keys c m).1.sessions i = s.sessions i := by
  simp [after_sessions, h]

theorem after_registry_of_fails (h : m.Fails) :
    (s.after keys c m).1.registry = s.registry.erase c.request.key := by
  cases m with
  | fail fault => rfl
  | leave | submit | go | note => cases h

theorem after_registry (h : ¬m.Fails) : (s.after keys c m).1.registry = s.registry := by
  cases m with
  | fail fault => exact absurd trivial h
  | leave | submit | go | note => rfl

theorem get?_of_get?_after {entry : Entry}
    (h : (s.after keys c m).1.registry.get? key = some entry) :
    s.registry.get? key = some entry := by
  by_cases hf : m.Fails
  · rw [after_registry_of_fails hf, Dict.get?_erase] at h
    split at h
    · cases h
    · exact h
  · rwa [after_registry hf] at h

theorem Move.call?_eq (h : m.call? s c = some d) :
    d.id = c.id ∧ d.session = c.session ∧ d.request = c.request := by
  cases m with
  | leave | fail => cases h
  | submit | go | note => cases h; exact ⟨rfl, rfl, rfl⟩

theorem Orderly.mem_map (hs : s.Orderly) (hc : c ∈ s.calls) (f : Call → Call) :
    d ∈ s.calls.map (fun d => if d.id = c.id then f d else d) ↔
    d ∈ s.calls ∧ d.id ≠ c.id ∨ f c = d := by
  constructor
  · intro h
    obtain ⟨b, hb, rfl⟩ := List.mem_map.1 h
    by_cases hid : b.id = c.id
    · rw [if_pos hid, hs.eq_of_id hb hc hid]; exact .inr rfl
    · rw [if_neg hid]; exact .inl ⟨hb, hid⟩
  · rintro (⟨hd, hid⟩ | rfl)
    · exact List.mem_map.2 ⟨d, hd, if_neg hid⟩
    · exact List.mem_map.2 ⟨c, hc, if_pos rfl⟩

theorem Orderly.mem_after (hs : s.Orderly) (hc : c ∈ s.calls) :
    d ∈ (s.after keys c m).1.calls ↔ d ∈ s.calls ∧ d.id ≠ c.id ∨ m.call? s c = some d := by
  cases m with
  | leave | fail => simp [after, finish, System.fail, release, setSession, Move.call?]
  | submit | go => simpa [after, submit, setPhase, setSession, Move.call?] using hs.mem_map hc _
  | note => simpa [after, Move.call?] using hs.mem_map hc fun d => { d with cancelled := true }

theorem Orderly.ascending_after (hs : s.Orderly) (keys : Nat → Key.Pair) (c : Call) (m : Move) :
    (s.after keys c m).1.calls.Pairwise fun c d => c.id < d.id := by
  have hmap (f : Call → Call) (hf : ∀ d, (f d).id = d.id) :
      (s.calls.map f).Pairwise fun c d => c.id < d.id := by
    refine List.pairwise_map.2 (hs.ascending.imp fun h => ?_)
    rwa [hf, hf]
  have hid (f : Call → Call) (hf : ∀ d, (f d).id = d.id) (d : Call) :
      (if d.id = c.id then f d else d).id = d.id := by
    split
    · exact hf d
    · rfl
  cases m with
  | leave | fail => exact hs.ascending.filter _
  | submit | go => exact hmap _ (hid (fun d => { d with phase := _ }) fun _ => rfl)
  | note => exact hmap _ (hid (fun d => { d with cancelled := true }) fun _ => rfl)

theorem Orderly.requesting (hs : s.Orderly) (hc : c ∈ s.calls) {start : Nat}
    (phase : c.phase = .submitting start) : (s.sessions c.session).state = .requesting := by
  have fits := hs.fits c hc
  rwa [phase] at fits

theorem Orderly.least (hs : s.Orderly) (hc : c ∈ s.calls)
    (h : s.isNext c = true ∨ c.phase ≠ .queued) :
    ∀ d ∈ s.calls, d.session = c.session → c.id ≤ d.id := by
  rcases h with next | phase
  · exact (hs.least_of_isNext next).2
  · exact fun d hd hds => hs.first d hd c hc hds phase

/-- A move that does not leave the session as it is, or after which the call goes on, is made by the
call that holds the session. -/
theorem Moves.least (keys : Nat → Key.Pair) (hs : s.Orderly) (hc : c ∈ s.calls)
    (moves : Moves limits s c e m) :
    (∀ d ∈ s.calls, d.session = c.session → c.id ≤ d.id) ∨
      m.session keys s c = s.sessions c.session ∧ m.call? s c = none ∧ ¬m.Fails := by
  cases moves with
  | reuse next | renew next | request next | turnAway next | resume next =>
      exact .inl (hs.least hc (.inl next))
  | refused phase | accepted phase | abandoned phase | unreachable phase | issue phase
      | unusable phase
  | timeOut phase | overrun phase | pend phase | stop phase | sleep phase | wake phase =>
      exact .inl (hs.least hc (.inr (by simp [phase])))
  | withdraw => exact .inr ⟨rfl, rfl, id⟩
  | note busy =>
      refine .inl (hs.least hc (.inr fun phase => ?_))
      rw [phase] at busy
      exact busy

theorem Moves.stored (hs : s.Orderly) (hc : c ∈ s.calls) (moves : Moves limits s c e m) :
    (m.session keys s c).Stored := by
  have stored := hs.stored c.session
  cases moves with
  | reuse | turnAway | overrun | pend | stop | sleep | withdraw | note => exact stored
  | refused | unreachable | unusable | timeOut => exact (rfl : ({} : Store) = {})
  | renew | request => exact ⟨_, rfl⟩
  | resume next held => exact stored.of_polling held
  | wake phase due held => exact stored.of_polling held
  | accepted phase | abandoned phase => exact stored.of_requesting (hs.requesting hc phase)
  | issue phase hstore usable => exact ⟨_, _, _, rfl, usable⟩

theorem Moves.fits (hs : s.Orderly) (hc : c ∈ s.calls) (moves : Moves limits s c e m)
    (hd : m.call? s c = some d) : d.phase.Fits (m.session keys s c).state := by
  cases moves with
  | reuse | turnAway | overrun | pend | stop | withdraw | refused | unreachable | unusable
      | timeOut | abandoned
  | issue => cases hd
  | renew | request => cases hd; exact (rfl : SessionState.requesting = .requesting)
  | resume | accepted | wake => cases hd; exact ⟨_, _, _, rfl⟩
  | sleep phase held => cases hd; exact ⟨_, _, _, held⟩
  | note => cases hd; exact hs.fits c hc

theorem Moves.busy (moves : Moves limits s c e m) (hd : m.call? s c = some d)
    (stopped : d.cancelled = true) : d.phase.Busy := by
  cases moves with
  | reuse | turnAway | overrun | pend | stop | withdraw | refused | unreachable | unusable
      | timeOut | abandoned
  | issue => cases hd
  | renew | request | resume | accepted | wake => cases hd; trivial
  | sleep phase held going => cases hd; exact absurd (going.symm.trans stopped) Bool.false_ne_true
  | note busy => cases hd; exact busy

theorem Moves.requested (hs : s.Orderly) (hc : c ∈ s.calls) (moves : Moves limits s c e m)
    (h : (m.session keys s c).state = .requesting) :
    (∃ d, m.call? s c = some d ∧ ∃ start, d.phase = .submitting start) ∨
      (s.sessions c.session).state = .requesting ∧ ∀ start, c.phase ≠ .submitting start := by
  cases moves with
  | refused | unreachable | unusable | timeOut | abandoned | issue | accepted | resume | wake =>
      cases h
  | renew | request => exact .inl ⟨_, rfl, _, rfl⟩
  | reuse next held | turnAway next held => cases held.symm.trans h
  | overrun phase held | pend phase held | stop phase held | sleep phase held =>
      cases held.symm.trans h
  | withdraw idle =>
      refine .inr ⟨h, fun start phase => idle ?_⟩
      rw [phase]
      trivial
  | note =>
      obtain ⟨d, hd, hds, start, phase⟩ := hs.requested _ h
      by_cases hid : d.id = c.id
      · exact .inl ⟨_, rfl, start, hs.eq_of_id hd hc hid ▸ phase⟩
      · refine .inr ⟨h, fun other hother => hid ?_⟩
        exact Nat.le_antisymm (hs.first c hc d hd hds.symm (by simp [phase]))
          (hs.first d hd c hc hds (by simp [hother]))

theorem Belongs.after (hs : s.Orderly) (hc : c ∈ s.calls) (h : s.Belongs i key) :
    (s.after keys c m).1.Belongs i key where
  made := by simpa using h.made
  calls := by
    intro d hd hdi
    rcases (hs.mem_after hc).1 hd with ⟨hd, _⟩ | hd
    · exact h.calls d hd hdi
    · obtain ⟨_, hsession, hrequest⟩ := Move.call?_eq hd
      exact hrequest ▸ h.calls c hc (hsession ▸ hdi)
  entries k entry hk := h.entries k entry (get?_of_get?_after hk)

theorem Orderly.after (hs : s.Orderly) (hc : c ∈ s.calls) (moves : Moves limits s c e m) :
    (s.after keys c m).1.Orderly where
  ascending := hs.ascending_after keys c m
  numbered := by
    intro d hd
    rw [after_callsMade]
    rcases (hs.mem_after hc).1 hd with ⟨hd, _⟩ | hd
    · exact hs.numbered d hd
    · exact (Move.call?_eq hd).1 ▸ hs.numbered c hc
  calls := by
    intro d hd
    rcases (hs.mem_after hc).1 hd with ⟨hd, _⟩ | hd
    · exact (hs.calls d hd).after hs hc
    · obtain ⟨_, hsession, hrequest⟩ := Move.call?_eq hd
      rw [hsession, hrequest]
      exact (hs.calls c hc).after hs hc
  entries key entry h := (hs.entries key entry (get?_of_get?_after h)).after hs hc
  first := by
    intro a ha b hb hab hphase
    rcases (hs.mem_after hc).1 ha with ⟨ha, _⟩
      | ha <;> rcases (hs.mem_after hc).1 hb with ⟨hb, _⟩ | hb
    · exact hs.first a ha b hb hab hphase
    · obtain ⟨hid, hsession, _⟩ := Move.call?_eq hb
      rcases moves.least keys hs hc with least | ⟨_, ends, _⟩
      · exact hid ▸ least a ha (hab.trans hsession)
      · cases ends.symm.trans hb
    · obtain ⟨hid, hsession, _⟩ := Move.call?_eq ha
      exact hid ▸ hs.first c hc b hb (hsession ▸ hab) hphase
    · cases ha.symm.trans hb
      exact Nat.le_refl _
  fits := by
    intro d hd
    rcases (hs.mem_after hc).1 hd with ⟨hd, hne⟩ | hd
    · by_cases hds : d.session = c.session
      · -- Beside the call that holds the session there are only calls that wait for it.
        rcases moves.least keys hs hc with least | ⟨same, _⟩
        · by_cases hq : d.phase = .queued
          · rw [hq]; trivial
          · exact absurd (Nat.le_antisymm (hs.first c hc d hd hds.symm hq) (least d hd hds)) hne
        · rw [hds, after_session, same, ← hds]
          exact hs.fits d hd
      · rw [after_sessions_of_ne hds]
        exact hs.fits d hd
    · rw [(Move.call?_eq hd).2.1, after_session]
      exact moves.fits hs hc hd
  busy := by
    intro d hd stopped
    rcases (hs.mem_after hc).1 hd with ⟨hd, _⟩ | hd
    · exact hs.busy d hd stopped
    · exact moves.busy hd stopped
  requested := by
    intro i hi
    by_cases hic : i = c.session
    · subst hic
      rw [after_session] at hi
      rcases moves.requested hs hc hi with ⟨d, hd, phase⟩ | ⟨held, hphase⟩
      · exact ⟨d, (hs.mem_after hc).2 (.inr hd), (Move.call?_eq hd).2.1, phase⟩
      · obtain ⟨d, hd, hds, start, phase⟩ := hs.requested _ held
        have hne : d.id ≠ c.id := fun hid => hphase start (hs.eq_of_id hd hc hid ▸ phase)
        exact ⟨d, (hs.mem_after hc).2 (.inl ⟨hd, hne⟩), hds, start, phase⟩
    · rw [after_sessions_of_ne hic] at hi
      obtain ⟨d, hd, hds, phase⟩ := hs.requested i hi
      have hne : d.id ≠ c.id := fun hid => hic (hds ▸ hs.eq_of_id hd hc hid ▸ rfl)
      exact ⟨d, (hs.mem_after hc).2 (.inl ⟨hd, hne⟩), hds, phase⟩
  stored := by
    intro i
    by_cases hic : i = c.session
    · rw [hic, after_session]
      exact moves.stored hs hc
    · rw [after_sessions_of_ne hic]
      exact hs.stored i
  fresh := by
    intro i hi
    rw [after_sessionsMade] at hi
    have hlt := (hs.calls c hc).made
    rw [after_sessions_of_ne (by omega)]
    exact hs.fresh i hi

end System

end HollowNode.Bootstrap
