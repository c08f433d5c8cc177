import HollowNode.Address
import HollowNode.Failure
import HollowNode.Text.Blank

namespace HollowNode

open Text

/-- Without a namespace all namespaces are watched. All times are milliseconds. -/
structure Settings where
  ns : Option String := none
  kubemarkImage : String :=
    "gcr.io/cf-london-servces-k8s/bmo/kubemark@sha256:9f717e0f2fc1b00c72719f157c1a3846ab8180070c201b950cade504c12dec59"
  limits : Bootstrap.Limits := {}
  remoteClientTimeout : Nat := 30000
  reconcileConcurrency : Nat := 4
  deferRequeue : Nat := 30000
  metricsAddress : Address := ⟨.v4 0 0 0 0, 8080⟩
deriving DecidableEq, Repr

namespace Settings

def given (lookup : String → Option String) (name : String) : Option String :=
  (lookup name).filter fun value => !(trimmed value.toList).isEmpty

def milliseconds (lookup : String → Option String) (name : String) (fallback : Nat) :
    Except ConfigFault Nat :=
  match given lookup name with
  | none => .ok fallback
  | some value =>
    match bounded? limit64 (trimmed value.toList) with
    | some n => .ok (n * 1000)
    | none => .error (.notSeconds name value)

def concurrency (lookup : String → Option String) (fallback : Nat) : Except ConfigFault Nat :=
  match given lookup "RECONCILE_CONCURRENCY" with
  | none => .ok fallback
  | some value =>
    match (bounded? limit16 (trimmed value.toList)).filter (0 < ·) with
    | some n => .ok n
    | none => .error (.notConcurrency value)

def address (lookup : String → Option String) (fallback : Address) : Except ConfigFault Address :=
  match given lookup "METRICS_ADDR" with
  | none => .ok fallback
  | some value =>
    match Address.ofText? (trim value) with
    | some a => .ok a
    | none => .error (.notAddress value)

def limitsOf (lookup : String → Option String) (defaults : Bootstrap.Limits) :
    Except ConfigFault Bootstrap.Limits := do
  let limits : Bootstrap.Limits := {
    pollInterval := ← milliseconds lookup "BOOTSTRAP_POLL_INTERVAL_SECS" defaults.pollInterval
    timeout := ← milliseconds lookup "BOOTSTRAP_TIMEOUT_SECS" defaults.timeout
    pollWindow := ← milliseconds lookup "BOOTSTRAP_POLL_WINDOW_SECS" defaults.pollWindow
    sessionTtl := ← milliseconds lookup "BOOTSTRAP_SESSION_TTL_SECS" defaults.sessionTtl }
  if limits.pollInterval = 0 then .error .zeroPollInterval
  else if limits.sessionTtl < limits.timeout then .error .shortSessionTtl
  else return limits

def ofLookup (lookup : String → Option String) : Except ConfigFault Settings := do
  let defaults : Settings := {}
  let limits ← limitsOf lookup defaults.limits
  let reconcileConcurrency ← concurrency lookup defaults.reconcileConcurrency
  let metricsAddress ← address lookup defaults.metricsAddress
  return {
    ns := given lookup "WATCH_NAMESPACE"
    kubemarkImage := (given lookup "KUBEMARK_IMAGE").getD defaults.kubemarkImage
    limits, reconcileConcurrency, metricsAddress
    remoteClientTimeout :=
      ← milliseconds lookup "REMOTE_CLIENT_TIMEOUT_SECS" defaults.remoteClientTimeout
    deferRequeue := ← milliseconds lookup "DEFER_REQUEUE_SECS" defaults.deferRequeue }

/-- The settings in an environment of bytes, where a value that is no text counts as missing. -/
def ofEnvironment (lookup : String → Option (List UInt8)) : Except ConfigFault Settings :=
  ofLookup fun name => (lookup name).bind fun bytes =>
    match Utf8.decode bytes with
    | .ok cs => some (String.ofList cs)
    | .error _ => none

end Settings

end HollowNode
