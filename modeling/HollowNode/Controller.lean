import HollowNode.Metrics
import HollowNode.Backoff
import HollowNode.Pass.Provision

namespace HollowNode

open Pass

/-- A pass for one machine with what is left of its program. While it waits for a client
certificate, `call` is its bootstrap call. -/
structure Flight where
  id : Nat
  ns : String
  name : String
  delivered : Bool
  program : Program Result
  call : Option Nat := none

structure Controller where
  bootstraps : Bootstrap.System
  metrics : Metrics := {}
  backoffs : Backoffs := {}
  flights : List Flight := []
  flightsMade : Nat := 0

namespace Controller

/-- A pass gets answers to whatever it asks; only the answer to its present question counts. -/
inductive Event
  | begin (ns name : String) (delivered : Bool)
  | reply (flight : Nat) (answer : (q : Query) → q.Answer)
  | bootstrap (event : Bootstrap.Event)
  | deleted (ns name : String)
  | forget (ns name : String)

/-- What the queue of objects reports about one of them or about itself. An object without a
namespace is in none. -/
inductive Notice
  | reconciled (ns : Option String) (name : String) (requeue : Option Nat)
  | objectNotFound (ns : Option String) (name : String)
  | reconcilerFailed (ns : Option String) (name : String) (f : Failure)
  | queueError (reason : String)
  | runnerError (reason : String)

/-- A pass ends with the delay in milliseconds before it is run again, if it is. -/
inductive Effect
  | bootstrap (effect : Bootstrap.Effect)
  | ended (flight : Nat) (result : Result) (requeue : Option Nat)

/-- Counts a delivered pass that ended. A success ends the backoff of its machine, and a failure
prolongs it. -/
def account (settings : Settings) (c : Controller) (key : String) : Result → Controller × Option Nat
  | .ok outcome =>
    ({ c with metrics := c.metrics.finished outcome.label, backoffs := c.backoffs.reset key },
      outcome.requeue? settings.deferRequeue)
  | .error f =>
    ({ c with metrics := c.metrics.failed f, backoffs := c.backoffs.fail key },
      some (c.backoffs.delay key * 1000))

def conclude (settings : Settings) (c : Controller) (f : Flight) (result : Result) :
    Controller × List Effect :=
  let c := { c with flights := c.flights.filter (·.id ≠ f.id) }
  if f.delivered then
    let (c, requeue) := c.account settings (Csr.objectKey f.ns f.name) result
    (c, [.ended f.id result requeue])
  else (c, [.ended f.id result none])

def setFlight (c : Controller) (f : Flight) : Controller :=
  { c with flights := c.flights.map fun g => if g.id = f.id then f else g }

def proceed (settings : Settings) (c : Controller) (f : Flight) :
    Program Result → Controller × List Effect
  | .done result => c.conclude settings f result
  | program => (c.setFlight { f with program, call := none }, [])

def resume (settings : Settings) (c : Controller) (call : Nat) (answer : Bootstrap.Answer) :
    Controller × List Effect :=
  match c.flights.find? (·.call = some call) with
  | none => (c, [])
  | some f =>
    match f.program with
    | .ask (.bootstrap _) next => c.proceed settings f (next answer)
    | _ => (c, [])

def hear (settings : Settings) (c : Controller) : List Bootstrap.Effect → Controller × List Effect
  | [] => (c, [])
  | effect :: rest =>
    let (c, more) := match effect with
      | .answer call answer => c.resume settings call answer
      | _ => (c, [])
    let (c, others) := c.hear settings rest
    (c, .bootstrap effect :: more ++ others)

def bootstrap (settings : Settings) (keys : Nat → Key.Pair) (c : Controller)
    (event : Bootstrap.Event) :
    Option (Controller × List Effect) := do
  let (bootstraps, effects) ← c.bootstraps.step settings.limits keys event
  let metrics := match event with
    | .submitted _ (.ok _) => c.metrics.submitted
    | _ => c.metrics
  return { c with bootstraps, metrics }.hear settings effects

/-- A pass gets an answer. The controller itself knows the time, observes, forgets sessions and gets
client certificates; the last takes a while. -/
def reply (settings : Settings) (c : Controller) (f : Flight) (answer : (q : Query) → q.Answer) :
    Program Result → Controller × List Effect
  | .done result => c.conclude settings f result
  | .ask q next =>
    match q with
    | .clock => c.proceed settings f (next c.bootstraps.now)
    | .observe result elapsed =>
      { c with metrics := c.metrics.observe result (elapsed * 1000) }.proceed settings f (next ())
    | .release key => { c with bootstraps := c.bootstraps.release key }.proceed settings f (next ())
    | .bootstrap request =>
      ({ c with bootstraps := c.bootstraps.start settings.limits request }.setFlight
        { f with call := some c.bootstraps.callsMade }, [])
    | q => c.proceed settings f (next (answer q))

def forget (c : Controller) (ns name : String) : Controller :=
  { c with bootstraps := c.bootstraps.release (Csr.IdentityRequest.forNode ns name).key }

def deleted (c : Controller) (ns name : String) : Controller :=
  { c.forget ns name with backoffs := c.backoffs.reset (Csr.objectKey ns name) }

def heed (c : Controller) : Notice → Controller
  | .objectNotFound ns name => c.deleted (ns.getD "") name
  | .reconciled .. | .reconcilerFailed .. | .queueError _ | .runnerError _ => c

def begin (settings : Settings) (c : Controller) (ns name : String) (delivered : Bool) :
    Controller :=
  { c with
    flights := c.flights ++ [⟨c.flightsMade, ns, name, delivered, provision settings ns name, none⟩]
    flightsMade := c.flightsMade + 1 }

def step (settings : Settings) (keys : Nat → Key.Pair) (c : Controller) :
    Event → Option (Controller × List Effect)
  | .begin ns name delivered => some (c.begin settings ns name delivered, [])
  | .reply flight answer => do
    let f ← c.flights.find? (·.id = flight)
    if f.call.isSome then none else some (c.reply settings f answer f.program)
  | .bootstrap event => c.bootstrap settings keys event
  | .deleted ns name => some (c.deleted ns name, [])
  | .forget ns name => some (c.forget ns name, [])

end Controller

end HollowNode
