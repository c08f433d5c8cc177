namespace HollowNode

inductive TaintEffect
  | noSchedule
  | preferNoSchedule
  | noExecute
deriving DecidableEq, Repr

namespace TaintEffect

def name : TaintEffect → String
  | noSchedule => "NoSchedule"
  | preferNoSchedule => "PreferNoSchedule"
  | noExecute => "NoExecute"

def ofName? (s : String) : Option TaintEffect :=
  if s = "NoSchedule" then some noSchedule
  else if s = "PreferNoSchedule" then some preferNoSchedule
  else if s = "NoExecute" then some noExecute
  else none

def unknown (s : String) : String := s!"unknown taint effect `{s}`"

@[simp]
theorem ofName?_name (e : TaintEffect) : ofName? e.name = some e := by cases e <;> decide

end TaintEffect

structure Taint where
  key : String
  value : Option String
  effect : TaintEffect
deriving DecidableEq, Repr

end HollowNode
