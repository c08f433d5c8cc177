import HollowNode.Base64
import HollowNode.Bootstrap.Limits
import HollowNode.Flag
import HollowNode.Kube.Fault

namespace HollowNode

inductive ConfigFault
  | notSeconds (name value : String)
  | zeroPollInterval
  | shortSessionTtl
  | notConcurrency (value : String)
  | notAddress (value : String)
  | cannotListen (address reason : String)
  | unreadableKubeconfig
  | noCluster
  | noServer (cluster : String)
  | authorityData (fault : Base64.Fault)
  | invalidKubeconfig
  | unusableKubeconfig
  | noToken (ns name : String)
  | secretText (ns name key : String) (fault : Text.Utf8.Fault)
  | noNamespace
  | told (text : String)
deriving DecidableEq, Repr

def ConfigFault.message : ConfigFault → String
  | notSeconds name value => s!"{name} must be a whole number of seconds, got '{value}'"
  | zeroPollInterval => "BOOTSTRAP_POLL_INTERVAL_SECS must be greater than zero"
  | shortSessionTtl => "BOOTSTRAP_SESSION_TTL_SECS must not be shorter than BOOTSTRAP_TIMEOUT_SECS"
  | notConcurrency value => s!"RECONCILE_CONCURRENCY must be a positive integer, got '{value}'"
  | notAddress value =>
    s!"METRICS_ADDR '{value}' is not a socket address: invalid socket address syntax"
  | cannotListen address reason => s!"cannot listen on {address}: {reason}"
  | unreadableKubeconfig => "unreadable kubeconfig: not a kubeconfig"
  | noCluster => "kubeconfig has no usable cluster entry"
  | noServer cluster => s!"kubeconfig cluster `{cluster}` has no server"
  | authorityData fault => s!"invalid certificate-authority-data: {fault.message}"
  | invalidKubeconfig => "invalid kubeconfig: not a kubeconfig"
  | unusableKubeconfig => "unusable kubeconfig: an entry is missing"
  | noToken ns name =>
    s!"KubeadmConfig {ns}/{name} has no bootstrap token in its join configuration"
  | secretText ns name key fault => s!"secret {ns}/{name} key {key} is not UTF-8: {fault.message}"
  | noNamespace => "object to create has no namespace"
  | told text => text

inductive Artifact
  | identityBundle
  | deployment
deriving DecidableEq, Repr

def Artifact.name : Artifact → String
  | identityBundle => "identity bundle"
  | deployment => "Deployment"

inductive Report
  | machine
  | kubemarkMachine
deriving DecidableEq, Repr

def Report.name : Report → String
  | machine => "Machine"
  | kubemarkMachine => "KubemarkMachine"

/-- What can end a provisioning pass, or the program, without a result. Conditions that go away by
themselves are no failures. -/
inductive Failure
  | kube (fault : Kube.Fault)
  | flag (fault : Flag.Fault)
  | encoding (text : String)
  | bootstrap (fault : Bootstrap.Fault)
  | submission (text : String)
  | create (artifact : Artifact) (name : String) (cause : Failure)
  | statusUpdate (text : String)
  | report (target : Report) (ns name : String) (cause : Failure)
  | config (fault : ConfigFault)
  | watch (text : String)
deriving DecidableEq, Repr

namespace Failure

def message : Failure → String
  | kube fault => fault.message
  | flag fault => s!"Malformed flag: {fault.message}"
  | encoding text => s!"Encoding error: {text}"
  | bootstrap fault => fault.message
  | submission text => s!"Submission failed: {text}"
  | create artifact name cause => s!"Submission failed: {artifact.name} {name}: {cause.message}"
  | statusUpdate text => s!"Status update failed: {text}"
  | report target ns name cause =>
    s!"Status update failed: {target.name} {ns}/{name}: {cause.message}"
  | config fault => s!"Invalid configuration: {fault.message}"
  | watch text => s!"Resource watch failed: {text}"

/-- The label under which failures are counted. -/
def kind : Failure → String
  | kube _ => "kube"
  | flag _ => "malformed_flag"
  | encoding _ => "encoding"
  | bootstrap fault => s!"bootstrap_{fault.kind}"
  | submission _ | create .. => "submission_failed"
  | statusUpdate _ | report .. => "status_update_failed"
  | config _ => "invalid_config"
  | watch _ => "watch"

end Failure

end HollowNode
