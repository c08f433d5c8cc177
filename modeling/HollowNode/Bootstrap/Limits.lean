namespace HollowNode.Bootstrap

/-- The delay between two polls, the deadline counted from submission, the longest a single call
keeps polling, and the time after which an unused session may be dropped, all in milliseconds. -/
structure Limits where
  pollInterval : Nat := 1000
  timeout : Nat := 300000
  pollWindow : Nat := 30000
  sessionTtl : Nat := 600000
deriving DecidableEq, Repr

/-- `outOfRange` is no answer: it stands for the end of the program, which stops where a time gets
too long to be a duration of less than 2⁶⁴ seconds. The program has neither this message nor this
kind. -/
inductive Fault
  | timeout (key : String) (seconds : Nat)
  | failed (key reason : String)
  | cancelled (key : String)
  | outOfRange (key : String)
deriving DecidableEq, Repr

namespace Fault

def message : Fault → String
  | timeout key seconds => s!"certificate for {key} not issued within {seconds}s"
  | failed key reason => s!"certificate bootstrap for {key} failed: {reason}"
  | cancelled key => s!"certificate bootstrap for {key} cancelled"
  | outOfRange key => s!"certificate bootstrap for {key} waits for longer than a duration can be"

def kind : Fault → String
  | timeout .. => "timeout"
  | failed .. => "failed"
  | cancelled _ => "cancelled"
  | outOfRange _ => "out_of_range"

end Fault

/-- The number of milliseconds that no duration reaches. -/
def durationLimit : Nat := Nat.pow 2 64 * 1000

end HollowNode.Bootstrap
