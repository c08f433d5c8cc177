import HollowNode.Decimal.Shortest
import HollowNode.Failure
import HollowNode.Pass.Outcome

namespace HollowNode

/-- Finished passes by outcome, failed passes by kind, requests submitted, and how long the
bootstraps of each result took, in microseconds and in the order in which they ended. -/
structure Metrics where
  passes : Dict Nat := {}
  failures : Dict Nat := {}
  submissions : Nat := 0
  bootstraps : Dict (List Nat) := {}
deriving DecidableEq, Repr

namespace Metrics

def increment (m : Dict Nat) (label : String) : Dict Nat :=
  m.insert label ((m.get? label).getD 0 + 1)

def errorLabel : String := "error"

def finished (m : Metrics) (label : String) : Metrics :=
  { m with passes := increment m.passes label }

def failed (m : Metrics) (f : Failure) : Metrics :=
  { m with passes := increment m.passes errorLabel, failures := increment m.failures f.kind }

def ended (m : Metrics) : Except Failure Pass.Outcome → Metrics
  | .ok outcome => m.finished outcome.label
  | .error f => m.failed f

def submitted (m : Metrics) : Metrics := { m with submissions := m.submissions + 1 }

def observe (m : Metrics) (result : String) (microseconds : Nat) : Metrics :=
  { m with
    bootstraps := m.bootstraps.insert result
      ((m.bootstraps.get? result).getD [] ++ [microseconds]) }

def escapeChar : Char → List Char
  | '\\' => ['\\', '\\']
  | '\n' => ['\\', 'n']
  | '"' => ['\\', '"']
  | c => [c]

def escape (s : String) : String := String.ofList (s.toList.flatMap escapeChar)

def labelText (p : String × String) : String := s!"{p.1}=\"{escape p.2}\""

def sample (name : String) (labels : List (String × String)) (value : String) : String :=
  let shown := if labels.isEmpty then ""
    else "\x7b" ++ String.intercalate "," (labels.map labelText) ++ "\x7d"
  s!"{name}{shown} {value}\n"

def family (name help kind : String) (samples : List String) : String :=
  if samples.isEmpty then ""
  else s!"# HELP {name} {help}\n# TYPE {name} {kind}\n" ++ String.join samples

def counters (name label help : String) (m : Dict Nat) : String :=
  family name help "counter" (m.entries.map fun p => sample name [(label, p.1)] (toString p.2))

/-- The upper bounds of the buckets in microseconds, with their texts in seconds. -/
def bounds : List (Nat × String) :=
  [(100000, "0.1"), (500000, "0.5"), (1000000, "1"), (2000000, "2"), (5000000, "5"),
    (10000000, "10"), (30000000, "30"), (60000000, "60"), (120000000, "120"), (300000000, "300")]

def seconds (microseconds : Nat) : Float :=
  Float.ofNat (microseconds / 1000000) + Float.ofNat (microseconds % 1000000 * 1000) / 1e9

/-- The sum of durations in double precision, added up one after the other. -/
def total (durations : List Nat) : Float := durations.foldl (fun sum d => sum + seconds d) 0

def durationsName : String := "kubemark_bootstrap_duration_seconds"

def durationSamples (p : String × List Nat) : List String :=
  let (result, durations) := p
  let bucket (bound : String) (count : Nat) :=
    sample (durationsName ++ "_bucket") [("result", result), ("le", bound)] (toString count)
  bounds.map (fun b => bucket b.2 (durations.countP (· ≤ b.1))) ++
    [bucket "+Inf" durations.length,
      sample (durationsName ++ "_sum") [("result", result)] (Decimal.text (total durations)),
      sample (durationsName ++ "_count") [("result", result)] (toString durations.length)]

def submissionsName : String := "kubemark_csr_submitted_total"

def text (m : Metrics) : String :=
  family durationsName "Time spent in certificate bootstrap per reconcile pass" "histogram"
    (m.bootstraps.entries.flatMap durationSamples) ++
  family submissionsName "CSRs submitted for hollow nodes" "counter"
    [sample submissionsName [] (toString m.submissions)] ++
  counters "kubemark_reconcile_errors_total" "kind"
    "Failed reconcile passes by error kind" m.failures ++
  counters "kubemark_reconcile_total" "outcome" "Reconcile passes by outcome" m.passes

end Metrics

end HollowNode
