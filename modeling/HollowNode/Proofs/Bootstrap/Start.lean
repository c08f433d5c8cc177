import HollowNode.Proofs.Bootstrap.After

namespace HollowNode.Bootstrap

namespace System

variable {limits : Limits} {keys : Nat → Key.Pair} {s s' : System} {c d : Call} {e : Event}
  {fs : List Effect} {i : Nat} {key k : String} {request : Csr.IdentityRequest} {entry : Entry}

/-- The session that a call for a key finds, or the one that is made for it. -/
def sessionFor (s : System) (key : String) : Nat :=
  ((s.registry.get? key).map (·.session)).getD s.sessionsMade

theorem sessionFor_eq (h : s.registry.get? key = some entry) :
    s.sessionFor key = entry.session := by
  simp [sessionFor, h]

theorem get?_evict (limits : Limits) (s : System) (key k : String) :
    (s.evict limits key).registry.get? k =
      (s.registry.get? k).filter fun entry => k = key || s.stays limits entry := by
  have h := s.registry.get?_filter (fun p => p.1 = key || s.stays limits p.2) k
  simpa [evict] using h

theorem get?_evict_self (limits : Limits) (s : System) (key : String) :
    (s.evict limits key).registry.get? key = s.registry.get? key := by
  rw [get?_evict]
  cases s.registry.get? key <;> simp [Option.filter]

@[simp]
theorem start_now : (s.start limits request).now = s.now := by
  simp only [start]
  cases (s.evict limits request.key).registry.get? request.key <;> rfl

@[simp]
theorem start_sessions : (s.start limits request).sessions = s.sessions := by
  simp only [start]
  cases (s.evict limits request.key).registry.get? request.key <;> rfl

@[simp]
theorem start_generated : (s.start limits request).generated = s.generated := by
  simp only [start]
  cases (s.evict limits request.key).registry.get? request.key <;> rfl

@[simp]
theorem start_callsMade : (s.start limits request).callsMade = s.callsMade + 1 := by
  simp only [start]
  cases (s.evict limits request.key).registry.get? request.key <;> rfl

theorem start_calls : (s.start limits request).calls =
    s.calls ++ [⟨s.callsMade, request, s.sessionFor request.key, .queued, false⟩] := by
  simp only [start, get?_evict_self, sessionFor]
  cases s.registry.get? request.key <;> rfl

theorem start_sessionsMade : (s.start limits request).sessionsMade =
    if s.registry.get? request.key = none then s.sessionsMade + 1 else s.sessionsMade := by
  simp only [start, get?_evict_self]
  cases s.registry.get? request.key <;> rfl

theorem get?_start (k : String) : (s.start limits request).registry.get? k =
    if k = request.key then some ⟨s.sessionFor request.key, s.now⟩
    else (s.registry.get? k).filter (s.stays limits) := by
  have h : (s.start limits request).registry =
      (s.evict limits request.key).registry.insert request.key
        ⟨s.sessionFor request.key, s.now⟩ := by
    simp only [start, get?_evict_self, sessionFor]
    cases s.registry.get? request.key <;> rfl
  rw [h, Dict.get?_insert]
  split
  · rfl
  next hk => simp [get?_evict, hk]

theorem mem_start : d ∈ (s.start limits request).calls ↔
    d ∈ s.calls ∨ d = ⟨s.callsMade, request, s.sessionFor request.key, .queued, false⟩ := by
  simp [start_calls]

theorem get?_start_eq_some (h : (s.start limits request).registry.get? k = some entry) :
    k = request.key ∧ entry = ⟨s.sessionFor request.key, s.now⟩ ∨
      k ≠ request.key ∧ s.registry.get? k = some entry ∧ s.stays limits entry = true := by
  rw [get?_start] at h
  split at h
  next hk => exact .inl ⟨hk, (Option.some.inj h).symm⟩
  next hk => exact .inr ⟨hk, Option.filter_eq_some_iff.1 h⟩

theorem Orderly.sessionFor_lt (hs : s.Orderly) (limits : Limits) (request : Csr.IdentityRequest) :
    s.sessionFor request.key < (s.start limits request).sessionsMade := by
  rw [start_sessionsMade]
  cases h : s.registry.get? request.key with
  | none => simp [sessionFor, h]
  | some entry => simpa [sessionFor, h] using (hs.entries _ _ h).made

theorem sessionsMade_le_start (limits : Limits) (s : System) (request : Csr.IdentityRequest) :
    s.sessionsMade ≤ (s.start limits request).sessionsMade := by
  rw [start_sessionsMade]
  split <;> omega

theorem Belongs.start (h : s.Belongs i key) : (s.start limits request).Belongs i key := by
  have found (he : s.sessionFor request.key = i) : request.key = key := by
    cases hg : s.registry.get? request.key with
    | none =>
        have := h.made
        simp only [sessionFor, hg, Option.map_none, Option.getD_none] at he
        omega
    | some entry => exact h.entries _ _ hg ((sessionFor_eq hg).symm.trans he)
  refine ⟨Nat.lt_of_lt_of_le h.made (sessionsMade_le_start limits s request), ?_, ?_⟩
  · intro d hd hdi
    rcases mem_start.1 hd with hd | rfl
    · exact h.calls d hd hdi
    · exact found hdi
  · intro k entry hk hi
    rcases get?_start_eq_some hk with ⟨rfl, rfl⟩ | ⟨_, hk, _⟩
    · exact found hi
    · exact h.entries k entry hk hi

theorem Orderly.belongs_sessionFor (hs : s.Orderly) (limits : Limits)
    (request : Csr.IdentityRequest) :
    (s.start limits request).Belongs (s.sessionFor request.key) request.key := by
  cases hg : s.registry.get? request.key with
  | some entry => rw [sessionFor_eq hg]; exact (hs.entries _ _ hg).start
  | none =>
      have hnew : s.sessionFor request.key = s.sessionsMade := by simp [sessionFor, hg]
      refine ⟨hs.sessionFor_lt limits request, ?_, ?_⟩
      · intro d hd hdi
        rcases mem_start.1 hd with hd | rfl
        · have := (hs.calls d hd).made; omega
        · rfl
      · intro k entry hk hi
        rcases get?_start_eq_some hk with ⟨rfl, _⟩ | ⟨_, hk, _⟩
        · rfl
        · have := (hs.entries k entry hk).made; omega

theorem Orderly.start (hs : s.Orderly) (limits : Limits) (request : Csr.IdentityRequest) :
    (s.start limits request).Orderly where
  ascending := by
    rw [start_calls]
    refine List.pairwise_append.2 ⟨hs.ascending, List.pairwise_singleton _ _, fun c hc d hd => ?_⟩
    rw [List.mem_singleton.1 hd]
    exact hs.numbered c hc
  numbered := by
    intro d hd
    rw [start_callsMade]
    rcases mem_start.1 hd with hd | rfl
    · have := hs.numbered d hd; omega
    · exact Nat.lt_succ_self _
  calls := by
    intro d hd
    rcases mem_start.1 hd with hd | rfl
    · exact (hs.calls d hd).start
    · exact hs.belongs_sessionFor limits request
  entries := by
    intro k entry hk
    rcases get?_start_eq_some hk with ⟨rfl, rfl⟩ | ⟨_, hk, _⟩
    · exact hs.belongs_sessionFor limits request
    · exact (hs.entries k entry hk).start
  first := by
    intro a ha b hb hab hphase
    rcases mem_start.1 hb with hb | rfl
    · rcases mem_start.1 ha with ha | rfl
      · exact hs.first a ha b hb hab hphase
      · exact Nat.le_of_lt (hs.numbered b hb)
    · exact absurd rfl hphase
  fits := by
    intro d hd
    rw [start_sessions]
    rcases mem_start.1 hd with hd | rfl
    · exact hs.fits d hd
    · trivial
  busy := by
    intro d hd stopped
    rcases mem_start.1 hd with hd | rfl
    · exact hs.busy d hd stopped
    · cases stopped
  requested := by
    intro i hi
    rw [start_sessions] at hi
    obtain ⟨d, hd, h⟩ := hs.requested i hi
    exact ⟨d, mem_start.2 (.inl hd), h⟩
  stored := by
    intro i
    rw [start_sessions]
    exact hs.stored i
  fresh := by
    intro i hi
    rw [start_sessions]
    exact hs.fresh i (Nat.le_trans (sessionsMade_le_start limits s request) hi)

def Registered (s : System) (key : String) (i : Nat) : Prop :=
  ∃ entry, s.registry.get? key = some entry ∧ entry.session = i

theorem Registered.unique {i j : Nat} (hi : s.Registered key i) (hj : s.Registered key j) :
    i = j := by
  obtain ⟨a, ha, rfl⟩ := hi
  obtain ⟨b, hb, rfl⟩ := hj
  cases ha.symm.trans hb
  rfl

theorem registered_start (limits : Limits) (s : System) (request : Csr.IdentityRequest) :
    (s.start limits request).Registered request.key (s.sessionFor request.key) :=
  ⟨⟨s.sessionFor request.key, s.now⟩, by simp [get?_start], rfl⟩

theorem Registered.start (hc : c ∈ s.calls) (h : s.Registered key c.session)
    (request : Csr.IdentityRequest) : (s.start limits request).Registered key c.session := by
  obtain ⟨entry, hk, he⟩ := h
  by_cases hkey : key = request.key
  · refine ⟨⟨s.sessionFor request.key, s.now⟩, by simp [get?_start, hkey], ?_⟩
    rw [← he]
    exact sessionFor_eq (hkey ▸ hk)
  · have used : s.inFlight entry.session = true := List.any_eq_true.2 ⟨c, hc, by simp [he]⟩
    refine ⟨entry, ?_, he⟩
    simp [get?_start, hkey, hk, Option.filter, stays, used]

theorem Belongs.release (h : s.Belongs i key) : (s.release k).Belongs i key where
  made := h.made
  calls := h.calls
  entries k' entry hk := by
    rw [System.release, Dict.get?_erase] at hk
    split at hk
    · cases hk
    · exact h.entries k' entry hk

theorem Orderly.release (hs : s.Orderly) (k : String) : (s.release k).Orderly where
  ascending := hs.ascending
  numbered := hs.numbered
  calls d hd := (hs.calls d hd).release
  entries k' entry hk := by
    rw [System.release, Dict.get?_erase] at hk
    split at hk
    · cases hk
    · exact (hs.entries k' entry hk).release
  first := hs.first
  fits := hs.fits
  busy := hs.busy
  requested := hs.requested
  stored := hs.stored
  fresh := hs.fresh

theorem Belongs.advance (h : s.Belongs i key) (milliseconds : Nat) :
    ({ s with now := s.now + milliseconds } : System).Belongs i key :=
  ⟨h.made, h.calls, h.entries⟩

theorem Orderly.advance (hs : s.Orderly) (milliseconds : Nat) :
    ({ s with now := s.now + milliseconds } : System).Orderly where
  ascending := hs.ascending
  numbered := hs.numbered
  calls d hd := (hs.calls d hd).advance milliseconds
  entries k entry hk := (hs.entries k entry hk).advance milliseconds
  first := hs.first
  fits := hs.fits
  busy := hs.busy
  requested := hs.requested
  stored := hs.stored
  fresh := hs.fresh

theorem orderly_initial (now : Nat) : ({ now } : System).Orderly := by
  constructor <;> simp [Session.Stored]

theorem Belongs.next (hs : s.Orderly) (h : s.Belongs i key) (step : Step limits keys s e s' fs) :
    s'.Belongs i key := by
  cases step with
  | start request => exact h.start
  | release released => exact h.release
  | advance milliseconds => exact h.advance milliseconds
  | move mem moves => exact h.after hs mem

theorem Orderly.next (hs : s.Orderly) (step : Step limits keys s e s' fs) : s'.Orderly := by
  cases step with
  | start request => exact hs.start limits request
  | release key => exact hs.release key
  | advance milliseconds => exact hs.advance milliseconds
  | move mem moves => exact hs.after mem moves

end System

end HollowNode.Bootstrap
