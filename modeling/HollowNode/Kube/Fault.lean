namespace HollowNode.Kube

/-- The server refuses (`api`), or answers with a body that is not the expected object (`body`), or
the request cannot be formed and is never sent (`request`), or something else breaks. -/
inductive Fault
  | api (message reason : String) (code : Nat)
  | body
  | request
  | other (text : String)
deriving DecidableEq, Repr

def Fault.message : Fault → String
  | .api message reason code => s!"Kubernetes error: {message}: {reason} ({code})"
  | .body => "Kubernetes error: unexpected response body"
  | .request => "Kubernetes error: request cannot be built"
  | .other text => s!"Kubernetes error: {text}"

end HollowNode.Kube
