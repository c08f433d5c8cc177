import HollowNode.Api.Metadata

namespace HollowNode.Api

open Json

structure ClusterStatus where
  infrastructureReady : Bool
deriving DecidableEq, Repr

structure Cluster where
  metadata : Metadata
  status : Option ClusterStatus
deriving Repr

namespace ClusterStatus

def ofJson? (j : Json) : Option ClusterStatus :=
  match record ["infrastructureReady"] j with
  | some [ready] => return ⟨← defaulted false flag? ready⟩
  | _ => none

def toJson (s : ClusterStatus) : Json := .obj [("infrastructureReady", .bool s.infrastructureReady)]

end ClusterStatus

namespace Cluster

def apiVersion : String := "cluster.x-k8s.io/v1beta1"

/-- The specification has to be there, and nothing of it is kept. -/
def ofJson? (j : Json) : Option Cluster :=
  match record ["metadata", "spec", "status"] j with
  | some [some metadata, some spec, status] => do
    let _ ← record [] spec
    return ⟨← Metadata.ofJson? metadata, ← defaulted none (nullable ClusterStatus.ofJson?) status⟩
  | _ => none

def toJson (c : Cluster) : Json :=
  .obj <| [("apiVersion", .str apiVersion), ("kind", .str "Cluster"),
    ("metadata", c.metadata.toJson), ("spec", .obj [])] ++
    optional "status" ClusterStatus.toJson c.status

def infrastructureReady (c : Cluster) : Bool := c.status.any (·.infrastructureReady)

end Cluster

end HollowNode.Api
