import HollowNode.Csr.Fault

namespace HollowNode.Simulation

/-- An answer that takes some milliseconds; without a name or a certificate there is nothing in
it. -/
structure Turn where
  delay : Nat := 0
  answer : Except Csr.Fault (Option String) := .ok none
deriving Repr

/-- The answers to come, and how many requests were submitted so far. -/
structure Script where
  submits : List Turn := []
  polls : List Turn := []
  otherwise : Turn := {}
  submitted : Nat := 0
deriving Repr

structure Amendment where
  submits : Option (List Turn) := none
  polls : Option (List Turn) := none
  otherwise : Option Turn := none
deriving Repr

namespace Script

def amend (s : Script) (a : Amendment) : Script :=
  { s with
    submits := a.submits.getD s.submits
    polls := a.polls.getD s.polls
    otherwise := a.otherwise.getD s.otherwise }

/-- The answer to a submission. A request that the script does not name is named by its number. -/
def submit (s : Script) : (Nat × Except Csr.Fault String) × Script :=
  let number := s.submitted + 1
  let turn := s.submits.headD {}
  let answer := turn.answer.map fun name => name.getD s!"csr-{number}"
  ((turn.delay, answer), { s with submits := s.submits.tail, submitted := number })

def poll (s : Script) : Turn × Script :=
  (s.polls.headD s.otherwise, { s with polls := s.polls.tail })

end Script

end HollowNode.Simulation
