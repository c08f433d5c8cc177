import HollowNode.Dict

namespace HollowNode

/-- The delay to come is `current` minutes, the one before it was `previous` minutes. -/
structure Backoff where
  first : Nat
  cap : Nat
  previous : Nat
  current : Nat
deriving DecidableEq, Repr

namespace Backoff

def start (first cap : Nat) : Backoff := ⟨first, cap, 0, first⟩

def standard : Backoff := start 1 10

instance : Inhabited Backoff := ⟨standard⟩

/-- The delay to come in seconds. -/
def delay (b : Backoff) : Nat := b.current * 60

def next (b : Backoff) : Backoff :=
  { b with previous := b.current, current := min (b.previous + b.current) b.cap }

def reset (b : Backoff) : Backoff := start b.first b.cap

def word? (n : Nat) : Option Nat := (some n).filter (· < Nat.pow 2 64)

inductive Call
  | next
  | reset
deriving DecidableEq, Repr

/-- What a call answers and what it leaves, where all numbers on the way fit into 64 bits: for the
next delay these are the delay in seconds and the sum of two delays in minutes, before it is
capped. -/
def call? (b : Backoff) : Call → Option (Option Nat × Backoff)
  | .next => do
    let delay ← word? (b.current * 60)
    let sum ← word? (b.previous + b.current)
    return (some delay, { b with previous := b.current, current := min sum b.cap })
  | .reset => some (none, b.reset)

def answers? (b : Backoff) : List Call → Option (List (Option Nat))
  | [] => some []
  | call :: calls => do
    let (answer, b) ← b.call? call
    let answers ← b.answers? calls
    return answer :: answers

end Backoff

/-- The sequences of the objects that failed since their last success. -/
structure Backoffs where
  running : Dict Backoff := {}
deriving DecidableEq, Repr

namespace Backoffs

def get (b : Backoffs) (key : String) : Backoff := (b.running.get? key).getD .standard

def delay (b : Backoffs) (key : String) : Nat := (b.get key).delay

def fail (b : Backoffs) (key : String) : Backoffs := ⟨b.running.insert key (b.get key).next⟩

def reset (b : Backoffs) (key : String) : Backoffs := ⟨b.running.erase key⟩

end Backoffs

end HollowNode
