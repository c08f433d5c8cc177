namespace HollowNode.Watch

abbrev Target := String × String

/-- How long requests are held back, in milliseconds. -/
def debounce : Nat := 1000

/-- Passes that become due at a certain time, passes that are due and wait, and passes that are
running. A request is held back for a while, so that changes in quick succession lead to one
pass. -/
structure Queue where
  scheduled : List (Target × Nat) := []
  waiting : List Target := []
  running : List Target := []
deriving DecidableEq, Repr

namespace Queue

def dueTime? (q : Queue) (t : Target) : Option Nat := (q.scheduled.find? (·.1 = t)).map (·.2)

/-- A pass is requested for a time. The request replaces one that is due no earlier than that; where
a pass is due already, or becomes due before, it counts for nothing. -/
def request (q : Queue) (t : Target) (time : Nat) : Queue :=
  if t ∈ q.waiting then q
  else if (q.dueTime? t).any (· < time) then q
  else { q with scheduled := q.scheduled.filter (·.1 ≠ t) ++ [(t, time + debounce)] }

/-- Whether a pass may start; no limit is written as zero. -/
def mayRun (limit : Nat) (q : Queue) (t : Target) : Bool :=
  t ∉ q.running && (limit = 0 || q.running.length < limit)

def ripen (q : Queue) (now : Nat) : Queue :=
  let due := (q.scheduled.filter (·.2 ≤ now)).mergeSort fun a b => a.2 ≤ b.2
  { q with scheduled := q.scheduled.filter (now < ·.2), waiting := q.waiting ++ due.map (·.1) }

def next? (limit : Nat) (q : Queue) (now : Nat) : Option (Target × Queue) :=
  let q := q.ripen now
  (q.waiting.find? (q.mayRun limit)).map fun t =>
    (t, { q with waiting := q.waiting.erase t, running := q.running ++ [t] })

def finish (q : Queue) (t : Target) : Queue := { q with running := q.running.erase t }

end Queue

end HollowNode.Watch
