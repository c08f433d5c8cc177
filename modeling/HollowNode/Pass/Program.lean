import HollowNode.Api.Cluster
import HollowNode.Api.ConfigMap
import HollowNode.Api.Deployment
import HollowNode.Api.KubeadmConfig
import HollowNode.Api.KubemarkMachine
import HollowNode.Api.Machine
import HollowNode.Bootstrap.System
import HollowNode.Failure
import HollowNode.Pass.Outcome

namespace HollowNode.Pass

open Api

/-- How a client reaches a workload cluster; the timeout is in milliseconds. -/
structure Connection where
  kubeconfig : String
  timeout : Nat
deriving DecidableEq, Repr

inductive Creation
  | created
  | alreadyExists
deriving DecidableEq, Repr

/-- What a pass asks of the management cluster (reads, and two reports at the end), of a workload
cluster (two connections, and two objects to create), and of the controller it runs in (a client
certificate, the time, an observation in milliseconds, and to forget a bootstrap session). -/
inductive Query
  | kubemarkMachine (ns name : String)
  | machine (ns name : String)
  | cluster (ns name : String)
  | kubeadmConfig (ns name : String)
  | secretValue (ns name key : String)
  | csrClient (connection : Connection)
  | workload (connection : Connection)
  | createConfigMap (configMap : ConfigMap)
  | createDeployment (deployment : Deployment)
  | setProviderId (ns name providerId : String)
  | markReady (ns name providerId : String)
  | bootstrap (request : Csr.IdentityRequest)
  | clock
  | observe (result : String) (elapsed : Nat)
  | release (key : String)

abbrev Query.Answer : Query → Type
  | .kubemarkMachine .. => Except Failure (Option KubemarkMachine)
  | .machine .. => Except Failure (Option Machine)
  | .cluster .. => Except Failure (Option Cluster)
  | .kubeadmConfig .. => Except Failure (Option KubeadmConfig)
  | .secretValue .. => Except Failure (Option String)
  | .csrClient _ | .workload _ | .setProviderId .. | .markReady .. => Except Failure Unit
  | .createConfigMap _ | .createDeployment _ => Except Failure Creation
  | .bootstrap _ => Bootstrap.Answer
  | .clock => Nat
  | .observe .. | .release _ => Unit

inductive Program (α : Type) : Type
  | done (a : α)
  | ask (q : Query) (next : q.Answer → Program α)

namespace Program

variable {α β : Type}

def bind : Program α → (α → Program β) → Program β
  | done a, f => f a
  | ask q next, f => ask q fun answer => (next answer).bind f

instance : Monad Program where
  pure := done
  bind := bind

def run {m : Type → Type} [Monad m] (answer : (q : Query) → m q.Answer) : Program α → m α
  | done a => pure a
  | ask q next => do (next (← answer q)).run answer

end Program

def ask (q : Query) : Program q.Answer := .ask q .done

abbrev Result := Except Failure Outcome

/-- A part of a pass, which may end the pass with a result. -/
abbrev Step := ExceptT Result Program

namespace Step

variable {α : Type}

def finish (outcome : Outcome) : Step α := throw (.ok outcome)

def defer (reason : String) : Step α := finish (.deferred reason)

def fail (f : Failure) : Step α := throw (.error f)

def orFail : Except Failure α → Step α
  | .ok a => return a
  | .error f => fail f

def toProgram (s : Step Outcome) : Program Result := do
  match ← s.run with
  | .ok outcome => return .ok outcome
  | .error result => return result

end Step

end HollowNode.Pass
