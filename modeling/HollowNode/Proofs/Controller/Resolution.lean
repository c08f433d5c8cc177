import HollowNode.Proofs.Controller.Log
import HollowNode.Proofs.Controller.Sessions
import HollowNode.Proofs.Pass.Obstacles

namespace HollowNode

open Pass Simulation

namespace Pass

variable {settings : Settings} {w : World} {ns name : String} {h : List Exchange}
  {p : Program Result}

end Pass

namespace Controller

variable {settings : Settings} {keys : Nat → Key.Pair} {c : Controller} {f : Flight}

namespace History

variable {bootstraps : Bootstrap.System} {w : World} {ns name : String} {n : Nat}
  {obstacle : Result}

end History

end Controller

end HollowNode
