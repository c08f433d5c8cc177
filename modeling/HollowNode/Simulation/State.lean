import HollowNode.Controller
import HollowNode.Simulation.Agenda
import HollowNode.Simulation.Change

namespace HollowNode.Simulation

open Pass

inductive Record
  | submit (time : Nat) (request : Csr.SigningRequest)
  | poll (time : Nat) (csr : String)
  | asked (time : Nat) (query : Query)
  | changed (time : Nat) (change : Change)

inductive Task
  | call (id : Nat)
  | pass (id : Nat)
deriving DecidableEq, Repr

inductive Plan
  | bootstrap (request : Csr.IdentityRequest)
  | pass (ns name : String) (delivered : Bool)
deriving DecidableEq, Repr

inductive Ending
  | answered (answer : Bootstrap.Answer)
  | passed (result : Result) (requeue : Option Nat)

/-- What is to be done: a task is started under a number, and perhaps cancelled after some time; the
bootstrap sessions hear of something; a task is cancelled, or all tasks that were delivered;
something changes from outside; passes that are due are started. -/
inductive Job
  | start (tag : Nat) (plan : Plan) (cancelAfter : Option Nat)
  | hear (event : Bootstrap.Event)
  | cancel (tag : Nat)
  | shutdown
  | change (change : Change)
  | dispatch

/-- `urgent` is what the task at hand does next. The latest record comes first, `tags` is the number
of tasks started by plan so far, and `changes` the number of changes to come. Where objects are
watched, `watch` says which passes are due and `watched` what the passes under way are for. -/
structure State where
  settings : Settings
  controller : Controller
  world : World := {}
  script : Script := {}
  urgent : List Job := []
  agenda : Agenda Job := {}
  running : List (Nat × Task) := []
  ended : List (Nat × Nat × Ending) := []
  stopped : Bool := false
  records : List Record := []
  tags : Nat := 0
  watch : Option Watch.Queue := none
  watched : List (Nat × Watch.Target) := []
  terminated : Bool := false
  changes : Nat := 0

namespace State

def start (settings : Settings) (now : Nat) : State :=
  { settings, controller := { bootstraps := { now } } }

def now (s : State) : Nat := s.controller.bootstraps.now

def record (s : State) (r : Record) : State := { s with records := r :: s.records }

def takeRecords (s : State) : State × List Record := ({ s with records := [] }, s.records.reverse)

def plan (s : State) (due : Nat) (job : Job) : State :=
  if due ≤ s.now then { s with urgent := s.urgent ++ [job] }
  else { s with agenda := s.agenda.add due job }

def isVisible (s : State) (ns : String) : Bool := s.settings.ns.all (· = ns)

def request (s : State) (time : Nat) (targets : List Watch.Target) : State :=
  match s.watch with
  | none => s
  | some queue =>
    let agenda := if targets.isEmpty then s.agenda
      else s.agenda.add (time + Watch.debounce) .dispatch
    { s with agenda, watch := some (targets.foldl (·.request · time) queue) }

def finish (s : State) (task : Task) (ending : Ending) : State :=
  match s.running.find? (·.2 = task) with
  | none => s
  | some (tag, _) =>
    { s with
      running := s.running.filter (·.1 ≠ tag)
      ended := s.ended ++ [(tag, s.now, ending)] }

def finishWatched (s : State) (flight : Nat) (requeue : Option Nat) : State :=
  match s.watch, s.watched.find? (·.1 = flight) with
  | some _, some (_, target) =>
    let s := match requeue with
      | some delay => s.request (s.now + delay) [target]
      | none => s
    { s with
      watch := s.watch.map (·.finish target)
      watched := s.watched.filter (·.1 ≠ flight)
      urgent := s.urgent ++ [.dispatch] }
  | _, _ => s

end State

end HollowNode.Simulation
