import HollowNode.Simulation.Script
import HollowNode.Simulation.World

namespace HollowNode.Simulation

/-- `stop` ends all delivered passes that wait for a certificate; `terminate` lets the passes that
are running end and starts no more. -/
inductive Change
  | put (object : Json)
  | delete (kind ns name : String)
  | fail (method : String) (failure : Failure)
  | recover (method : String)
  | amend (amendment : Amendment)
  | stop
  | terminate

namespace Change

def name : Change → String
  | put _ => "put"
  | delete .. => "delete"
  | fail .. => "fail"
  | recover _ => "recover"
  | amend _ => "script"
  | stop => "cancel"
  | terminate => "sigterm"

def world (w : World) : Change → World
  | put object => (w.put? object).getD w
  | delete kind ns name => w.delete kind ns name
  | fail method failure => w.fail method failure
  | recover method => w.recover method
  | _ => w

def targets (before after : World) (visible : String → Bool) : Change → List Watch.Target
  | put object =>
    match object.get? "kind", (object.get? "metadata").bind Api.Metadata.ofJson? with
    | some (.str "KubemarkMachine"), some m =>
      let (ns, name) := World.placeOf m
      if visible ns then after.targetsOf ns name else []
    | some (.str "Machine"), some m =>
      let (ns, name) := World.placeOf m
      if visible ns then after.ownerTargets ns name else []
    | _, _ => []
  | delete "Machine" ns name => if visible ns then before.ownerTargets ns name else []
  | _ => []

end Change

end HollowNode.Simulation
