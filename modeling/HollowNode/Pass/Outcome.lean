namespace HollowNode.Pass

/-- `deferred` is a pass that waits for something else to become ready; `bootstrapPending` is one
that waits for its certificate and asks to be run again after some milliseconds. -/
inductive Outcome
  | provisioned
  | alreadyReady
  | absent
  | deferred (reason : String)
  | bootstrapPending (retryAfter : Nat)
deriving DecidableEq, Repr

namespace Outcome

def label : Outcome → String
  | provisioned => "provisioned"
  | alreadyReady => "already_ready"
  | absent => "absent"
  | deferred _ => "deferred"
  | bootstrapPending _ => "bootstrap_pending"

/-- The delay in milliseconds before the next pass; none where only a change calls for one. -/
def requeue? (deferral : Nat) : Outcome → Option Nat
  | provisioned | alreadyReady | absent => none
  | deferred _ => some deferral
  | bootstrapPending retryAfter => some retryAfter

end Outcome

end HollowNode.Pass
