namespace HollowNode

variable {State Event Effect : Type}

/-- A system that takes one step after another for ever. Where nothing is left to do it lets time
pass, so that a run that ends is one that goes on with steps that change nothing. -/
structure Run (step : State → Event → Option (State × List Effect)) (initial : State) where
  state : Nat → State
  event : Nat → Event
  effects : Nat → List Effect
  state_zero : state 0 = initial
  step_eq : ∀ n, step (state n) (event n) = some (state (n + 1), effects n)

namespace Run

variable {step : State → Event → Option (State × List Effect)} {initial : State}

theorem invariant (r : Run step initial) {P : State → Prop} (first : P initial)
    (next : ∀ s e s' fs, step s e = some (s', fs) → P s → P s') (n : Nat) : P (r.state n) := by
  induction n with
  | zero => rw [r.state_zero]; exact first
  | succ n ih => exact next _ _ _ _ (r.step_eq n) ih

theorem keeps (r : Run step initial) {P : State → Prop} {i j : Nat} (hij : i ≤ j)
    (first : P (r.state i)) (next : ∀ n, i ≤ n → P (r.state n) → P (r.state (n + 1))) :
    P (r.state j) := by
  induction hij with
  | refl => exact first
  | step hin ih => exact next _ hin ih

theorem exists_last (r : Run step initial) {P : State → Prop} {i j : Nat} (hij : i ≤ j)
    (hi : P (r.state i)) (hj : ¬P (r.state j)) :
    ∃ n, i ≤ n ∧ n < j ∧ P (r.state n) ∧ ¬P (r.state (n + 1)) := by
  induction hij with
  | refl => exact absurd hi hj
  | @step j hij ih =>
    by_cases h : P (r.state j)
    · exact ⟨j, hij, Nat.lt_succ_self j, h, hj⟩
    · obtain ⟨n, hin, hnj, hn⟩ := ih h
      exact ⟨n, hin, Nat.lt_succ_of_lt hnj, hn⟩

theorem eq_of_lt (r : Run step initial) {f : State → Nat}
    (mono : ∀ n, f (r.state n) ≤ f (r.state (n + 1))) {i j : Nat}
    (hi : f (r.state i) < f (r.state (i + 1))) (hj : f (r.state j) < f (r.state (j + 1)))
    (h : f (r.state i) = f (r.state j)) : i = j := by
  have later {i j : Nat} (hij : i < j) (hi : f (r.state i) < f (r.state (i + 1))) :
      f (r.state i) < f (r.state j) :=
    r.keeps (P := fun s => f (r.state i) < f s) hij hi fun n _ hn => Nat.lt_of_lt_of_le hn (mono n)
  rcases Nat.lt_trichotomy i j with hij | hij | hij
  · exact absurd h (Nat.ne_of_lt (later hij hi))
  · exact hij
  · exact absurd h (Nat.ne_of_gt (later hij hj))

theorem exists_of_events (step : State → Event → Option (State × List Effect))
    (events : Nat → Event) {P : Nat → State → Prop} (first : P 0 initial)
    (next : ∀ n s, P n s → ∃ s' fs, step s (events n) = some (s', fs) ∧ P (n + 1) s') :
    ∃ r : Run step initial, (∀ n, r.event n = events n) ∧ ∀ n, P n (r.state n) := by
  let states (n : Nat) : { s : State // P n s } :=
    n.rec ⟨initial, first⟩ fun n s =>
      ⟨(next n s.1 s.2).choose, (next n s.1 s.2).choose_spec.choose_spec.2⟩
  exact ⟨{
    state n := (states n).1
    event := events
    effects n := (next n _ (states n).2).choose_spec.choose
    state_zero := rfl
    step_eq n := (next n _ (states n).2).choose_spec.choose_spec.1 }, fun _ => rfl,
      fun n => (states n).2⟩

def taken (step : State → Event → Option (State × List Effect)) (idle : Event)
    (s : State) (e : Event) : Event × State × List Effect :=
  match step s e with
  | some next => (e, next)
  | none => (idle, s, [])

def statesOf (step : State → Event → Option (State × List Effect)) (idle : Event) (initial : State)
    (events : List Event) : Nat → State
  | 0 => initial
  | n + 1 => (taken step idle (statesOf step idle initial events n) (events.getD n idle)).2.1

/-- The run in which the events of a list happen one after another, as far as they can, and then
nothing. -/
def ofEvents (idle : Event) (still : ∀ s, step s idle = some (s, [])) (events : List Event) :
    Run step initial where
  state := statesOf step idle initial events
  event n := (taken step idle (statesOf step idle initial events n) (events.getD n idle)).1
  effects n := (taken step idle (statesOf step idle initial events n) (events.getD n idle)).2.2
  state_zero := rfl
  step_eq n := by
    simp only [statesOf, taken]
    split
    next h => exact h
    next => exact still _

theorem state_ofEvents (idle : Event) (still : ∀ s, step s idle = some (s, []))
    (events : List Event) {n : Nat} (hn : events.length ≤ n) :
    (ofEvents idle still events : Run step initial).state n =
      (ofEvents idle still events : Run step initial).state events.length := by
  induction hn with
  | refl => rfl
  | @step n hn ih =>
    rw [← ih]
    have hidle : events.getD n idle = idle := by
      rw [List.getD, List.getElem?_eq_none hn, Option.getD_none]
    simp only [ofEvents, statesOf, taken, hidle, still]

theorem event_ofEvents_of_le (idle : Event) (still : ∀ s, step s idle = some (s, []))
    (events : List Event) {n : Nat} (hn : events.length ≤ n) :
    (ofEvents idle still events : Run step initial).event n = idle := by
  have hidle : events.getD n idle = idle := by
    rw [List.getD, List.getElem?_eq_none hn, Option.getD_none]
  simp only [ofEvents, taken, hidle, still]

theorem event_ofEvents (idle : Event) (still : ∀ s, step s idle = some (s, []))
    (events : List Event) (n : Nat) :
    (ofEvents idle still events : Run step initial).event n ∈ idle :: events := by
  simp only [ofEvents, taken]
  split
  · rcases Nat.lt_or_ge n events.length with h | h
    · exact List.mem_cons_of_mem _ (by simp [List.getD, h])
    · simp [List.getD, h]
  · exact List.mem_cons_self

end Run

end HollowNode
