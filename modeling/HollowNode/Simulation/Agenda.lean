namespace HollowNode.Simulation

/-- Things to do in the order of their times; what falls on the same time stays in the order in
which it was noted down. -/
structure Agenda (α : Type) where
  entries : List (Nat × α) := []
deriving Repr

namespace Agenda

variable {α : Type}

def place (due : Nat) (a : α) : List (Nat × α) → List (Nat × α)
  | [] => [(due, a)]
  | e :: rest => if e.1 ≤ due then e :: place due a rest else (due, a) :: e :: rest

def add (g : Agenda α) (due : Nat) (a : α) : Agenda α := ⟨place due a g.entries⟩

def next? (g : Agenda α) : Option (Nat × α × Agenda α) :=
  match g.entries with
  | [] => none
  | (due, a) :: rest => some (due, a, ⟨rest⟩)

end Agenda

end HollowNode.Simulation
