import HollowNode.Simulation.State

namespace HollowNode.Simulation.State

open Pass

variable (keys : Nat → Key.Pair)

/-- What the controller does reaches the clusters. A session that a call gives up goes to the next
call, once the task at hand waits. -/
def effect (s : State) (session : Option Nat) : Controller.Effect → State
  | .bootstrap (.submit call request) =>
    let ((delay, answer), script) := s.script.submit
    { s.record (.submit s.now request) with script }.plan (s.now + delay)
      (.hear (.submitted call answer))
  | .bootstrap (.poll call csr) =>
    let (turn, script) := s.script.poll
    { s.record (.poll s.now csr) with script }.plan (s.now + turn.delay)
      (.hear (.polled call turn.answer))
  | .bootstrap (.sleep call wakeAt) => s.plan wakeAt (.hear (.wake call))
  | .bootstrap (.answer call answer) =>
    let s := s.finish (.call call) (.answered answer)
    match session.bind s.controller.bootstraps.next? with
    | some c => { s with agenda := s.agenda.add s.now (.hear (.acquire c.id)) }
    | none => s
  | .ended flight result requeue =>
    (s.finish (.pass flight) (.passed result requeue)).finishWatched flight requeue

def callOf : Bootstrap.Event → Option Nat
  | .acquire call | .submitted call _ | .polled call _ | .wake call | .cancel call => some call
  | _ => none

def apply (s : State) (event : Controller.Event) : State :=
  let call := match event with
    | .bootstrap e => callOf e
    | _ => none
  let session := (call.bind s.controller.bootstraps.call?).map (·.session)
  match s.controller.step s.settings keys event with
  | none => s
  | some (controller, effects) => effects.foldl (·.effect session ·) { s with controller }

def callOfTask (s : State) : Task → Option Nat
  | .call id => some id
  | .pass id => (s.controller.flights.find? (·.id = id)).bind (·.call)

def cancel (s : State) (task : Task) : State :=
  match s.callOfTask task with
  | some call => s.apply keys (.bootstrap (.cancel call))
  | none => s

def shutdown (s : State) : State :=
  (s.controller.flights.filter (·.delivered)).foldl (fun s f => s.cancel keys (.pass f.id))
    { s with stopped := true }

def begin (s : State) (tag : Nat) : Plan → State
  | .bootstrap request =>
    let id := s.controller.bootstraps.callsMade
    let s := s.apply keys (.bootstrap (.start request))
    { s with
      running := s.running ++ [(tag, .call id)], urgent := s.urgent ++ [.hear (.acquire id)] }
  | .pass ns name delivered =>
    let id := s.controller.flightsMade
    let s := s.apply keys (.begin ns name delivered)
    { s with running := s.running ++ [(tag, .pass id)] }

def change (s : State) (c : Change) : State :=
  let world := c.world s.world
  let s := { s with world }.request s.now (c.targets s.world world s.isVisible)
  match c with
  | .amend a => { s with script := s.script.amend a }
  | .stop => s.shutdown keys
  | .terminate => { s with terminated := true }
  | _ => s

def heed (s : State) (notice : Controller.Notice) : State :=
  { s with controller := s.controller.heed notice }

/-- Starts the next pass that is due, and then the others. Where the machine is gone there is
nothing to do but to forget it. -/
def dispatch (s : State) : State :=
  match s.watch with
  | none => s
  | some queue =>
    if s.terminated then s
    else match queue.next? s.settings.reconcileConcurrency s.now with
      | none => { s with watch := some (queue.ripen s.now) }
      | some (target, queue) =>
        let (ns, name) := target
        let s : State := { s with watch := some queue, urgent := s.urgent ++ [.dispatch] }
        if s.isVisible ns && (s.world.kubemarkMachines.get? ns name).isSome then
          let id := s.controller.flightsMade
          let s := s.apply keys (.begin ns name true)
          { s with watched := s.watched ++ [(id, target)] }
        else { s.heed (.objectNotFound ns name) with watch := some (queue.finish target) }

def perform (s : State) : Job → State
  | .start tag plan cancelAfter =>
    let s := match cancelAfter with
      | some delay => { s with agenda := s.agenda.add (s.now + delay) (.cancel tag) }
      | none => s
    s.begin keys tag plan
  | .hear event => s.apply keys (.bootstrap event)
  | .cancel tag => (s.running.find? (·.1 = tag)).elim s fun p => s.cancel keys p.2
  | .shutdown => s.shutdown keys
  | .change c => { s.record (.changed s.now c) with changes := s.changes - 1 }.change keys c
  | .dispatch => s.dispatch keys

def drive (s : State) (f : Flight) : State :=
  match f.program with
  | .done _ => s
  | .ask q _ =>
    let world := (s.world.answer q).2
    let asked := if isForeign q then s.record (.asked s.now q) else s
    let asked := { asked with world }.request s.now (World.noticed s.world world s.isVisible q)
    let replied := asked.apply keys (.reply f.id fun q => (s.world.answer q).1)
    match replied.controller.flights.find? (·.id = f.id) with
    | some ⟨_, _, _, delivered, _, some call⟩ =>
      let next : Bootstrap.Event := if delivered && s.stopped then .cancel call else .acquire call
      { replied with urgent := replied.urgent ++ [.hear next] }
    | _ => replied

def next? (limit : Option Nat) (s : State) : Option State :=
  match s.controller.flights.find? (·.call.isNone) with
  | some f => some (s.drive keys f)
  | none =>
    match s.urgent with
    | job :: rest => some ({ s with urgent := rest }.perform keys job)
    | [] =>
      match s.agenda.next? with
      | none => none
      | some (due, job, agenda) =>
        if limit.any (· < due) then none
        else
          some (({ s with agenda }.apply keys (.bootstrap (.advance (due - s.now)))).perform keys job)

def goOn (limit : Option Nat) (reached : State → Bool) : (fuel : Nat) → State → State
  | 0, s => s
  | fuel + 1, s =>
    if reached s then s
    else match s.next? keys limit with
      | none => s
      | some s => goOn limit reached fuel s

def advance (fuel milliseconds : Nat) (s : State) : State :=
  let target := s.now + milliseconds
  let s := goOn keys (some target) (fun _ => false) fuel s
  s.apply keys (.bootstrap (.advance (target - s.now)))

/-- Carries out plans side by side, each with a delay and perhaps a time after which it is
cancelled, until all have ended; gives the times and ways in which they did. -/
def carryOut (fuel : Nat) (plans : List (Nat × Plan × Option Nat)) (s : State) :
    State × List (Option (Nat × Ending)) :=
  let tagged := plans.zipIdx s.tags
  let agenda := tagged.foldl
    (fun g ((delay, plan, cancelAfter), tag) => g.add (s.now + delay) (.start tag plan cancelAfter))
    s.agenda
  let s := { s with agenda, ended := [], tags := s.tags + plans.length }
  let s := goOn keys none (fun s => plans.length ≤ s.ended.length) fuel s
  (s, tagged.map fun (_, tag) => (s.ended.find? (·.1 = tag)).map (·.2))

/-- Whether a controller that watches has nothing left to do: it was told to end, its passes have
ended, and no more changes come. -/
def isOver (s : State) : Bool := s.terminated && s.watched.isEmpty && s.changes = 0

def watchAll (fuel : Nat) (changes : List (Nat × Change)) (s : State) : State :=
  let agenda := changes.foldl (fun g (delay, c) => g.add (s.now + delay) (.change c)) s.agenda
  let s := { s with agenda, changes := changes.length, watch := some {} }
  goOn keys none isOver fuel (s.request s.now (s.world.listed s.isVisible))

end HollowNode.Simulation.State
