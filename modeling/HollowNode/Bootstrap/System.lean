import HollowNode.Bootstrap.Limits
import HollowNode.Bootstrap.Store
import HollowNode.Csr.Fault
import HollowNode.Csr.Request
import HollowNode.Dict

namespace HollowNode.Bootstrap

open Csr

inductive SessionState
  | idle
  | requesting
  | polling (csr : String) (submittedAt polls : Nat)
  | issued (identity : ClientIdentity)
  | failed (reason : String)
deriving DecidableEq, Repr

def SessionState.summary (quote : String → String) (instant : Nat → String) : SessionState → String
  | idle => "Idle"
  | requesting => "Requesting"
  | polling csr submittedAt polls =>
    let fields :=
      [s!"csr_name: {quote csr}", s!"submitted_at: {instant submittedAt}", s!"polls: {polls}"]
    "Polling \x7b " ++ ", ".intercalate fields ++ " \x7d"
  | issued identity => s!"Issued({identity.summary quote})"
  | failed reason => s!"Failed({quote reason})"

structure Session where
  state : SessionState := .idle
  store : Store := {}
deriving DecidableEq, Repr

inductive Outcome
  | issued (identity : ClientIdentity)
  | pending (retryAfter : Nat)
deriving DecidableEq, Repr

abbrev Answer := Except Fault Outcome

inductive Phase
  | queued
  | submitting (windowStart : Nat)
  | polling (windowStart : Nat)
  | sleeping (windowStart wakeAt : Nat)
deriving DecidableEq, Repr

structure Call where
  id : Nat
  request : IdentityRequest
  session : Nat
  phase : Phase := .queued
  cancelled : Bool := false
deriving DecidableEq, Repr

structure Entry where
  session : Nat
  lastUsed : Nat
deriving DecidableEq, Repr

/-- All calls for one key share a session. One call at a time holds it, and the others wait in the
order in which they came. Sessions are numbered and never reused; the registry says which one
belongs to a key now. Calls stand in the order in which they started, `generated` counts the key
pairs made so far, and `now` is the time in milliseconds since 1970-01-01T00:00:00Z. Time passes by
`advance` alone, so between the steps of a call only while it waits for the API server, for its
session or for its next poll. -/
structure System where
  now : Nat
  sessions : Nat → Session := fun _ => {}
  sessionsMade : Nat := 0
  registry : Dict Entry := {}
  calls : List Call := []
  callsMade : Nat := 0
  generated : Nat := 0

inductive Event
  | start (request : IdentityRequest)
  | acquire (call : Nat)
  | submitted (call : Nat) (answer : Except Csr.Fault String)
  | polled (call : Nat) (answer : Except Csr.Fault (Option String))
  | wake (call : Nat)
  | cancel (call : Nat)
  | release (key : String)
  | advance (milliseconds : Nat)

inductive Effect
  | submit (call : Nat) (request : SigningRequest)
  | poll (call : Nat) (csr : String)
  | sleep (call wakeAt : Nat)
  | answer (call : Nat) (answer : Answer)

namespace System

def inFlight (s : System) (session : Nat) : Bool := s.calls.any (·.session = session)

def stays (limits : Limits) (s : System) (e : Entry) : Bool :=
  s.inFlight e.session || s.now - e.lastUsed < limits.sessionTtl

/-- Drops the sessions of other keys that nobody has used for long enough. -/
def evict (limits : Limits) (s : System) (key : String) : System :=
  let keep (p : String × Entry) := p.1 = key || s.stays limits p.2
  { s with registry := ⟨s.registry.entries.filter keep, s.registry.ascending.filter _⟩ }

def start (limits : Limits) (s : System) (request : IdentityRequest) : System :=
  let s := s.evict limits request.key
  let (session, s) := match s.registry.get? request.key with
    | some e => (e.session, s)
    | none => (s.sessionsMade, { s with sessionsMade := s.sessionsMade + 1 })
  { s with
    registry := s.registry.insert request.key ⟨session, s.now⟩
    calls := s.calls ++ [⟨s.callsMade, request, session, .queued, false⟩]
    callsMade := s.callsMade + 1 }

def call? (s : System) (id : Nat) : Option Call := s.calls.find? (·.id = id)

/-- Whether a call is the one to get its session next: nobody holds it or has waited for it
longer. -/
def isNext (s : System) (c : Call) : Bool :=
  c.phase = .queued && (s.calls.find? (·.session = c.session)).any (·.id = c.id)

def setPhase (s : System) (id : Nat) (phase : Phase) : System :=
  { s with calls := s.calls.map fun c => if c.id = id then { c with phase } else c }

def setSession (s : System) (id : Nat) (session : Session) : System :=
  { s with sessions := fun i => if i = id then session else s.sessions i }

def release (s : System) (key : String) : System := { s with registry := s.registry.erase key }

def finish (s : System) (c : Call) (answer : Answer) : System × List Effect :=
  ({ s with calls := s.calls.filter (·.id ≠ c.id) }, [.answer c.id answer])

/-- A call ends and takes its session out of the registry, whichever session is registered by
now. -/
def fail (s : System) (c : Call) (fault : Fault) : System × List Effect :=
  let s := s.setSession c.session ⟨.failed fault.message, {}⟩
  (s.release c.request.key).finish c (.error fault)

/-- Makes a key pair and submits a request for a certificate. That a pair or a request cannot be
made is left out. -/
def submit (keys : Nat → Key.Pair) (s : System) (c : Call) : System × List Effect :=
  let pair := keys s.generated
  let store := (s.sessions c.session).store.setPrivateKey pair.privatePem
  let s := (s.setSession c.session ⟨.requesting, store⟩).setPhase c.id (.submitting s.now)
  ({ s with generated := s.generated + 1 }, [.submit c.id (.new c.request pair)])

def poll (s : System) (c : Call) (windowStart : Nat) : System × List Effect :=
  let session := s.sessions c.session
  match session.state with
  | .polling csr submittedAt polls =>
    if c.cancelled then s.finish c (.error (.cancelled c.request.key))
    else
      let s := s.setSession c.session { session with state := .polling csr submittedAt (polls + 1) }
      (s.setPhase c.id (.polling windowStart), [.poll c.id csr])
  | _ => s.fail c (.failed c.request.key "there is no request to poll")

/-- A call gets its session. An issued identity is handed out again as long as it has not
expired. -/
def acquire (keys : Nat → Key.Pair) (s : System) (c : Call) : System × List Effect :=
  match (s.sessions c.session).state with
  | .issued identity =>
    if identity.outlives s.now then s.finish c (.ok (.issued identity))
    else (s.setSession c.session {}).submit keys c
  | .failed reason => s.finish c (.error (.failed c.request.key reason))
  | .polling .. => s.poll c s.now
  | .idle | .requesting => s.submit keys c

def submitted (s : System) (c : Call) (windowStart : Nat) :
    Except Csr.Fault String → System × List Effect
  | .error fault => s.fail c (.failed c.request.key fault.message)
  | .ok csr =>
    let session := s.sessions c.session
    (s.setSession c.session { session with state := .polling csr s.now 0 }).poll c windowStart

/-- Goes on after a poll that brought no certificate: waits for the next one, but neither beyond the
deadline nor beyond the time a call may take. Both are measured at one instant, because no time
passes between two looks at the clock without an answer of the API server or a sleep between them.
-/
def wait (limits : Limits) (s : System) (c : Call) (windowStart submittedAt : Nat) :
    System × List Effect :=
  let key := c.request.key
  let remaining := limits.timeout - (s.now - submittedAt)
  let delay := min limits.pollInterval remaining
  let elapsed := s.now - windowStart
  if remaining = 0 then s.fail c (.timeout key (limits.timeout / 1000))
  else if durationLimit ≤ elapsed + delay then s.finish c (.error (.outOfRange key))
  else if limits.pollWindow < elapsed + delay then s.finish c (.ok (.pending delay))
  else if c.cancelled then s.finish c (.error (.cancelled key))
  else (s.setPhase c.id (.sleeping windowStart (s.now + delay)), [.sleep c.id (s.now + delay)])

def polled (limits : Limits) (s : System) (c : Call) (windowStart : Nat) :
    Except Csr.Fault (Option String) → System × List Effect
  | .error fault => s.fail c (.failed c.request.key fault.message)
  | .ok certificate =>
    let session := s.sessions c.session
    let store := match certificate with
      | some pem => session.store.updateCertificate pem
      | none => session.store
    let s := s.setSession c.session { session with store }
    match store.current s.now, session.state with
    | .ok identity, _ =>
      (s.setSession c.session ⟨.issued identity, store⟩).finish c (.ok (.issued identity))
    | .error .noPair, .polling _ submittedAt _ => s.wait limits c windowStart submittedAt
    | .error fault, _ => s.fail c (.failed c.request.key fault.message)

/-- A call that waits or sleeps ends at once; one that is busy with the API server ends when it
would wait the next time. -/
def cancel (s : System) (c : Call) : System × List Effect :=
  match c.phase with
  | .queued | .sleeping .. => s.finish c (.error (.cancelled c.request.key))
  | .submitting _ | .polling _ =>
    ({ s with
      calls := s.calls.map fun d => if d.id = c.id then { d with cancelled := true } else d }, [])

def step (limits : Limits) (keys : Nat → Key.Pair) (s : System) :
    Event → Option (System × List Effect)
  | .start request => some (s.start limits request, [])
  | .acquire id => do
    let c ← s.call? id
    if s.isNext c then some (s.acquire keys c) else none
  | .submitted id answer => do
    let c ← s.call? id
    match c.phase with
    | .submitting windowStart => some (s.submitted c windowStart answer)
    | _ => none
  | .polled id answer => do
    let c ← s.call? id
    match c.phase with
    | .polling windowStart => some (s.polled limits c windowStart answer)
    | _ => none
  | .wake id => do
    let c ← s.call? id
    match c.phase with
    | .sleeping windowStart wakeAt => if wakeAt ≤ s.now then some (s.poll c windowStart) else none
    | _ => none
  | .cancel id => do return s.cancel (← s.call? id)
  | .release key => some (s.release key, [])
  | .advance milliseconds => some ({ s with now := s.now + milliseconds }, [])

def session? (s : System) (key : String) : Option Session :=
  (s.registry.get? key).map fun e => s.sessions e.session

def next? (s : System) (session : Nat) : Option Call :=
  (s.calls.find? (·.session = session)).filter (·.phase = .queued)

end System

end HollowNode.Bootstrap
