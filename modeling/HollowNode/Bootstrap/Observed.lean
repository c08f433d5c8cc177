import HollowNode.Bootstrap.System

namespace HollowNode.Bootstrap

/-- A system and the numbers of the calls in it that only ask for the state of a session. They wait
for the session in one line with the calls that bootstrap, and a session that is waited for stays
registered, but to ask is not to use it: the session lives no longer for it. -/
structure Observed where
  system : System
  observers : List Nat := []

namespace Observed

inductive Event
  | event (event : Bootstrap.Event)
  | ask (key : String)
  | tell (call : Nat)

inductive Effect
  | effect (effect : Bootstrap.Effect)
  | tell (state : Option SessionState)

def concerns (s : Observed) : Bootstrap.Event → Bool
  | .acquire id | .submitted id _ | .polled id _ | .wake id | .cancel id => s.observers.contains id
  | .start _ | .release _ | .advance _ => false

def ask (s : Observed) (key : String) (session : Nat) : Observed where
  system := { s.system with
    calls := s.system.calls ++ [⟨s.system.callsMade, ⟨key, "", ""⟩, session, .queued, false⟩]
    callsMade := s.system.callsMade + 1 }
  observers := s.observers ++ [s.system.callsMade]

def dismiss (s : Observed) (c : Call) : Observed where
  system := { s.system with calls := s.system.calls.filter (·.id ≠ c.id) }
  observers := s.observers.erase c.id

def step (limits : Limits) (keys : Nat → Key.Pair) (s : Observed) :
    Event → Option (Observed × List Effect)
  | .event e =>
    if s.concerns e then none
    else (s.system.step limits keys e).map fun (system, effects) =>
      ({ s with system }, effects.map .effect)
  | .ask key =>
    match s.system.registry.get? key with
    | none => some (s, [.tell none])
    | some entry => some (s.ask key entry.session, [])
  | .tell id => do
    let c ← s.system.call? id
    if s.observers.contains id && s.system.isNext c then
      some (s.dismiss c, [.tell (some (s.system.sessions c.session).state)])
    else none

end Observed

end HollowNode.Bootstrap
