import HollowNode.Api.Metadata

namespace HollowNode.Api

open Json

structure BootstrapToken where
  token : String
deriving DecidableEq, Repr

structure Discovery where
  bootstrapToken : Option BootstrapToken := none
deriving DecidableEq, Repr

structure JoinConfiguration where
  discovery : Discovery := {}
deriving DecidableEq, Repr

structure KubeadmConfigSpec where
  joinConfiguration : Option JoinConfiguration := none
deriving DecidableEq, Repr

structure KubeadmConfig where
  metadata : Metadata
  spec : KubeadmConfigSpec
deriving Repr

namespace BootstrapToken

def ofJson? (j : Json) : Option BootstrapToken :=
  match record ["token"] j with
  | some [token] => return ⟨← defaulted "" text? token⟩
  | _ => none

def toJson (t : BootstrapToken) : Json := .obj [("token", .str t.token)]

end BootstrapToken

namespace Discovery

def ofJson? (j : Json) : Option Discovery :=
  match record ["bootstrapToken"] j with
  | some [token] => return ⟨← defaulted none (nullable BootstrapToken.ofJson?) token⟩
  | _ => none

def toJson (d : Discovery) : Json :=
  .obj <| optional "bootstrapToken" BootstrapToken.toJson d.bootstrapToken

end Discovery

namespace JoinConfiguration

def ofJson? (j : Json) : Option JoinConfiguration :=
  match record ["discovery"] j with
  | some [discovery] => return ⟨← defaulted {} Discovery.ofJson? discovery⟩
  | _ => none

def toJson (c : JoinConfiguration) : Json := .obj [("discovery", c.discovery.toJson)]

end JoinConfiguration

namespace KubeadmConfigSpec

def ofJson? (j : Json) : Option KubeadmConfigSpec :=
  match record ["joinConfiguration"] j with
  | some [join] => return ⟨← defaulted none (nullable JoinConfiguration.ofJson?) join⟩
  | _ => none

def toJson (s : KubeadmConfigSpec) : Json :=
  .obj <| optional "joinConfiguration" JoinConfiguration.toJson s.joinConfiguration

end KubeadmConfigSpec

namespace KubeadmConfig

def apiVersion : String := "bootstrap.cluster.x-k8s.io/v1beta1"

def ofJson? (j : Json) : Option KubeadmConfig :=
  match record ["metadata", "spec"] j with
  | some [some metadata, some spec] => do
    return ⟨← Metadata.ofJson? metadata, ← KubeadmConfigSpec.ofJson? spec⟩
  | _ => none

def toJson (c : KubeadmConfig) : Json :=
  .obj [("apiVersion", .str apiVersion), ("kind", .str "KubeadmConfig"),
    ("metadata", c.metadata.toJson), ("spec", c.spec.toJson)]

/-- The bootstrap token; an empty one is none. -/
def bootstrapToken (c : KubeadmConfig) : Option String :=
  match c.spec.joinConfiguration.bind (·.discovery.bootstrapToken) with
  | some t => if t.token.isEmpty then none else some t.token
  | none => none

end KubeadmConfig

end HollowNode.Api
