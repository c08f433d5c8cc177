import HollowNode.Kube.Fault

namespace HollowNode.Csr

inductive Fault
  | kube (fault : Kube.Fault)
  | notFound (text : String)
  | denied (text : String)
  | failed (text : String)
  | api (text : String)
deriving DecidableEq, Repr

def Fault.message : Fault → String
  | .kube fault => fault.message
  | .notFound text => s!"CSR not found: {text}"
  | .denied text => s!"CSR denied: {text}"
  | .failed text => s!"CSR failed: {text}"
  | .api text => s!"CSR API error: {text}"

def Fault.kind : Fault → String
  | .kube _ => "kube"
  | .notFound _ => "not_found"
  | .denied _ => "denied"
  | .failed _ => "failed"
  | .api _ => "api"

end HollowNode.Csr
