import HollowNode.Proofs.Bootstrap.Calls
import HollowNode.Proofs.Run

namespace HollowNode.Bootstrap

namespace System

variable {limits : Limits} {keys : Nat → Key.Pair} {s s' : System} {c d : Call}
  {e : Event} {m : Move} {fs : List Effect}

theorem Moves.of_submit {session : Session} (moves : Moves limits s c e (.submit session)) :
    s.isNext c = true ∧ e = .acquire c.id ∧ ((s.sessions c.session).state = .idle ∨
      ∃ identity, (s.sessions c.session).state = .issued identity ∧
        identity.outlives s.now = false) := by
  cases moves with
  | renew next held dead => exact ⟨next, rfl, .inr ⟨_, held, dead⟩⟩
  | request next held => exact ⟨next, rfl, .inl held⟩

theorem Step.of_submit {id : Nat} {request : Csr.SigningRequest} (step : Step limits keys s e s' fs)
    (h : .submit id request ∈ fs) :
    ∃ c ∈ s.calls, ∃ session, c.id = id ∧ request = .new c.request (keys s.generated) ∧
      Moves limits s c e (.submit session) ∧ s' = (s.after keys c (.submit session)).1 := by
  obtain ⟨c, hc, m, moves, rfl, _, single⟩ := step.of_effect h
  cases m with
  | submit session =>
      cases single
      exact ⟨c, hc, session, rfl, rfl, moves, rfl⟩
  | leave | fail | note => cases single
  | go =>
      cases single
      cases moves

theorem Step.of_answer {id : Nat} {answer : Answer} (step : Step limits keys s e s' fs)
    (h : .answer id answer ∈ fs) :
    ∃ c ∈ s.calls, c.id = id ∧ ((∃ session, Moves limits s c e (.leave session answer)) ∨
      ∃ fault, answer = .error fault ∧ Moves limits s c e (.fail fault)) := by
  obtain ⟨c, hc, m, moves, _, _, single⟩ := step.of_effect h
  cases m with
  | leave session other =>
      cases single
      exact ⟨c, hc, rfl, .inl ⟨session, moves⟩⟩
  | fail fault =>
      cases single
      exact ⟨c, hc, rfl, .inr ⟨fault, rfl, moves⟩⟩
  | submit | note => cases single
  | go =>
      cases single
      cases moves

theorem Step.generated_le (step : Step limits keys s e s' fs) : s.generated ≤ s'.generated := by
  cases step with
  | start request => simp
  | release | advance => exact Nat.le_refl _
  | @move c e m mem moves =>
      cases m with
      | leave | fail | go | note => exact Nat.le_refl _
      | submit session => exact Nat.le_succ _

theorem Step.generated_lt {id : Nat} {request : Csr.SigningRequest}
    (step : Step limits keys s e s' fs) (h : .submit id request ∈ fs) :
    s.generated < s'.generated := by
  obtain ⟨c, _, session, _, _, _, rfl⟩ := step.of_submit h
  exact Nat.lt_succ_self s.generated

end System

/-- The runs of the bootstrap system from a time at which there are no sessions. -/
abbrev History (limits : Limits) (keys : Nat → Key.Pair) (now : Nat) :=
  Run (System.step limits keys) ({ now } : System)

namespace History

variable {limits : Limits} {keys : Nat → Key.Pair} {now : Nat}

/-- The run in which some events happen, and in the end nothing while no time passes. -/
def ofEvents (events : List Event) : History limits keys now :=
  Run.ofEvents (.advance 0) (fun _ => rfl) events

theorem orderly (r : History limits keys now) (n : Nat) : (r.state n).Orderly :=
  r.invariant (System.orderly_initial now) (fun _ _ _ _ h hs => hs.next (hs.step h)) n

theorem step (r : History limits keys now) (n : Nat) :
    System.Step limits keys (r.state n) (r.event n) (r.state (n + 1)) (r.effects n) :=
  (r.orderly n).step (r.step_eq n)

def Submits (r : History limits keys now) (n : Nat) (c : Call) (key : String) : Prop :=
  c ∈ (r.state n).calls ∧ ∃ request, .submit c.id request ∈ r.effects n ∧ request.key = key

theorem now_le_succ (r : History limits keys now) (n : Nat) :
    (r.state n).now ≤ (r.state (n + 1)).now := by
  have step := r.step n
  generalize r.event n = e, r.state (n + 1) = s', r.effects n = fs at step
  cases step with
  | start request => simp
  | release => exact Nat.le_refl _
  | advance milliseconds => exact Nat.le_add_right _ _
  | move => simp

theorem now_mono (r : History limits keys now) {i j : Nat} (hij : i ≤ j) :
    (r.state i).now ≤ (r.state j).now :=
  r.keeps (P := fun s => (r.state i).now ≤ s.now) hij (Nat.le_refl _)
    fun n _ h => Nat.le_trans h (r.now_le_succ n)

theorem belongs (r : History limits keys now) {i j session : Nat} {key : String} (hij : i ≤ j)
    (h : (r.state i).Belongs session key) : (r.state j).Belongs session key :=
  r.keeps (P := fun s => s.Belongs session key) hij h fun n _ h => h.next (r.orderly n) (r.step n)

theorem generated_mono (r : History limits keys now) {i j : Nat} (hij : i ≤ j) :
    (r.state i).generated ≤ (r.state j).generated :=
  r.keeps (P := fun s => (r.state i).generated ≤ s.generated) hij (Nat.le_refl _)
    fun n _ h => Nat.le_trans h (r.step n).generated_le

theorem generated_injective (r : History limits keys now) {i j id other : Nat}
    {request signing : Csr.SigningRequest} (hi : .submit id request ∈ r.effects i)
    (hj : .submit other signing ∈ r.effects j) (h : (r.state i).generated = (r.state j).generated) :
    i = j :=
  r.eq_of_lt (f := (·.generated)) (fun n => r.generated_mono (Nat.le_succ n))
    ((r.step i).generated_lt hi) ((r.step j).generated_lt hj) h

end History

end HollowNode.Bootstrap
