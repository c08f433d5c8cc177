import HollowNode.Proofs.Bootstrap.Start

namespace HollowNode.Bootstrap

def Event.call? : Event → Option Nat
  | acquire id | submitted id _ | polled id _ | wake id | cancel id => some id
  | start _ | release _ | advance _ => none

def Effect.call : Effect → Nat
  | submit id _ | poll id _ | sleep id _ | answer id _ => id

theorem Phase.Busy.ne_queued {phase : Phase} (h : phase.Busy) : phase ≠ .queued := by
  rintro rfl
  exact h

namespace System

variable {limits : Limits} {keys : Nat → Key.Pair} {s s' : System} {c d : Call}
  {e : Event} {m : Move} {fs : List Effect}

theorem Orderly.alone (hs : s.Orderly) (hc : c ∈ s.calls) (hd : d ∈ s.calls)
    (h : c.session = d.session) (hcq : c.phase ≠ .queued) (hdq : d.phase ≠ .queued) : c = d :=
  hs.eq_of_id hc hd (Nat.le_antisymm (hs.first d hd c hc h.symm hcq) (hs.first c hc d hd h hdq))

theorem Moves.call?_event (moves : Moves limits s c e m) : e.call? = some c.id := by
  cases moves with
  | _ => rfl

theorem Moves.effects_call (moves : Moves limits s c e m) :
    ∀ f ∈ (s.after keys c m).2, f.call = c.id := by
  cases moves with
  | note => exact fun f hf => absurd hf List.not_mem_nil
  | _ => exact fun f hf => by rw [List.mem_singleton.1 hf]; rfl

theorem Moves.call?_ne_queued (moves : Moves limits s c e m) (hd : m.call? s c = some d) :
    d.phase ≠ .queued := by
  cases moves with
  | reuse | turnAway | overrun | pend | stop | withdraw | refused | unreachable | unusable
      | timeOut | abandoned
  | issue => cases hd
  | renew | request | resume | accepted | sleep | wake => cases hd; simp
  | note busy => cases hd; exact busy.ne_queued

/-- Where a call comes from that is there after a step. -/
inductive Comes (limits : Limits) (keys : Nat → Key.Pair) (s : System) (e : Event) (s' : System)
    (fs : List Effect) (d : Call) : Prop
  | started (request : Csr.IdentityRequest) (event : e = .start request)
      (call : d = ⟨s.callsMade, request, s.sessionFor request.key, .queued, false⟩)
        (effects : fs = [])
  | left (mem : d ∈ s.calls) (event : e.call? ≠ some d.id) (effects : ∀ f ∈ fs, f.call ≠ d.id)
      (session : d.phase ≠ .queued → s'.sessions d.session = s.sessions d.session)
  | moved {c : Call} {m : Move} (mem : c ∈ s.calls) (moves : Moves limits s c e m)
      (call : m.call? s c = some d) (state : s' = (s.after keys c m).1)
      (effects : fs = (s.after keys c m).2)

theorem Step.comes (hs : s.Orderly) (step : Step limits keys s e s' fs) (hd : d ∈ s'.calls) :
    Comes limits keys s e s' fs d := by
  cases step with
  | start request =>
      rcases mem_start.1 hd with hd | rfl
      · exact .left hd nofun nofun fun _ => by rw [start_sessions]
      · exact .started request rfl rfl rfl
  | release key => exact .left hd nofun nofun fun _ => rfl
  | advance milliseconds => exact .left hd nofun nofun fun _ => rfl
  | @move c e m mem moves =>
      rcases (hs.mem_after mem).1 hd with ⟨hd, hne⟩ | hd
      · refine .left hd ?_ ?_ ?_
        · rw [moves.call?_event]
          exact fun h => hne (Option.some.inj h).symm
        · intro f hf h
          exact hne (h.symm.trans (moves.effects_call f hf))
        · intro hq
          by_cases hds : d.session = c.session
          · rcases moves.least keys hs mem with least | ⟨same, _⟩
            · exact absurd (Nat.le_antisymm (hs.first c mem d hd hds.symm hq) (least d hd hds)) hne
            · rw [hds, after_session, same]
          · exact after_sessions_of_ne hds
      · exact .moved mem moves hd rfl rfl

/-- The number of a call is taken, and its session is the one that it was given. -/
structure Assigned (s : System) (id i : Nat) : Prop where
  made : id < s.callsMade
  session : ∀ c ∈ s.calls, c.id = id → c.session = i

theorem Assigned.start (hs : s.Orderly) (limits : Limits) (request : Csr.IdentityRequest) :
    (s.start limits request).Assigned s.callsMade (s.sessionFor request.key) where
  made := by simp
  session d hd hid := by
    rcases mem_start.1 hd with hd | rfl
    · exact absurd hid (Nat.ne_of_lt (hs.numbered d hd))
    · rfl

theorem Step.callsMade_le (step : Step limits keys s e s' fs) : s.callsMade ≤ s'.callsMade := by
  cases step with
  | start request => simp
  | release | advance => exact Nat.le_refl _
  | move => simp

theorem Step.sessionsMade_le (step : Step limits keys s e s' fs) :
    s.sessionsMade ≤ s'.sessionsMade := by
  cases step with
  | start request => exact sessionsMade_le_start limits s request
  | release | advance => exact Nat.le_refl _
  | move => simp

theorem Assigned.next {id i : Nat} (h : s.Assigned id i) (hs : s.Orderly)
    (step : Step limits keys s e s' fs) : s'.Assigned id i where
  made := Nat.lt_of_lt_of_le h.made step.callsMade_le
  session d hd hid := by
    cases step.comes hs hd with
    | started request event call =>
        subst call
        exact absurd hid (Nat.ne_of_gt h.made)
    | left mem => exact h.session d mem hid
    | moved mem moves call =>
        obtain ⟨hdc, hsession, _⟩ := Move.call?_eq call
        rw [hsession]
        exact h.session _ mem (hdc ▸ hid)

theorem Step.of_call {id : Nat} (step : Step limits keys s e s' fs) (he : e.call? = some id) :
    ∃ c ∈ s.calls, c.id = id ∧ ∃ m, Moves limits s c e m ∧ s' = (s.after keys c m).1 ∧
      fs = (s.after keys c m).2 := by
  cases step with
  | start | release | advance => cases he
  | @move c e m mem moves =>
      exact ⟨c, mem, Option.some.inj (moves.call?_event.symm.trans he), m, moves, rfl, rfl⟩

theorem Step.of_effect {f : Effect} (step : Step limits keys s e s' fs) (hf : f ∈ fs) :
    ∃ c ∈ s.calls, ∃ m, Moves limits s c e m ∧ s' = (s.after keys c m).1 ∧ fs = [f] ∧
      (s.after keys c m).2 = [f] := by
  cases step with
  | start | release | advance => cases hf
  | @move c e m mem moves =>
      have single : (s.after keys c m).2 = [f] := by
        cases m with
        | leave | fail | submit | go => rw [List.mem_singleton.1 hf]; rfl
        | note => cases hf
      exact ⟨c, mem, m, moves, rfl, single, single⟩

theorem Step.effects_call (step : Step limits keys s e s' fs) :
    ∀ f ∈ fs, ∃ c ∈ s.calls, f.call = c.id := by
  intro f hf
  obtain ⟨c, hc, m, moves, _, _, single⟩ := step.of_effect hf
  exact ⟨c, hc, moves.effects_call f (single ▸ List.mem_singleton_self f)⟩

theorem Step.stays (hs : s.Orderly) (step : Step limits keys s e s' fs) (hd : d ∈ s.calls)
    (unanswered : ∀ answer, .answer d.id answer ∉ fs) : ∃ d' ∈ s'.calls, d'.id = d.id := by
  cases step with
  | start request => exact ⟨d, mem_start.2 (.inl hd), rfl⟩
  | release | advance => exact ⟨d, hd, rfl⟩
  | @move c e m mem moves =>
      by_cases hid : d.id = c.id
      · obtain rfl := hs.eq_of_id hd mem hid
        cases m with
        | leave session answer => exact absurd (.head _) (unanswered answer)
        | fail fault => exact absurd (.head _) (unanswered (.error fault))
        | submit | go | note => exact ⟨_, (hs.mem_after mem).2 (.inr rfl), rfl⟩
      · exact ⟨d, (hs.mem_after mem).2 (.inl ⟨hd, hid⟩), rfl⟩

end System

end HollowNode.Bootstrap
