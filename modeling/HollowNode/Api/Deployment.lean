import HollowNode.Api.Metadata

namespace HollowNode.Api

open Json

structure VolumeMount where
  mountPath : String
  name : String
deriving DecidableEq, Repr

structure SecurityContext where
  privileged : Option Bool := none
deriving DecidableEq, Repr

structure Container where
  name : String
  image : Option String := none
  command : Option (List String) := none
  args : Option (List String) := none
  securityContext : Option SecurityContext := none
  volumeMounts : Option (List VolumeMount) := none
deriving DecidableEq, Repr

structure Toleration where
  key : Option String
  effect : Option String
deriving DecidableEq, Repr

/-- A volume with the files of a ConfigMap. -/
structure Volume where
  name : String
  configMap : Option String
deriving DecidableEq, Repr

structure PodSpec where
  containers : List Container := []
  tolerations : Option (List Toleration) := none
  volumes : Option (List Volume) := none
deriving DecidableEq, Repr

structure PodTemplate where
  metadata : Option Metadata := none
  spec : Option PodSpec := none
deriving Repr

structure DeploymentSpec where
  replicas : Option Int := none
  matchLabels : Option (Dict String) := none
  template : PodTemplate := {}
deriving Repr

structure Deployment where
  metadata : Metadata := {}
  spec : Option DeploymentSpec := none
deriving Repr

namespace VolumeMount

def ofJson? (j : Json) : Option VolumeMount := do
  let fs ← lenient j
  return ⟨(← latest "mountPath" text? fs).getD "", (← latest "name" text? fs).getD ""⟩

def toJson (m : VolumeMount) : Json := .obj [("mountPath", .str m.mountPath), ("name", .str m.name)]

end VolumeMount

namespace SecurityContext

def ofJson? (j : Json) : Option SecurityContext :=
  do return ⟨← latest "privileged" flag? (← lenient j)⟩

def toJson (c : SecurityContext) : Json := .obj <| optional "privileged" .bool c.privileged

end SecurityContext

namespace Container

def ofJson? (j : Json) : Option Container := do
  let fs ← lenient j
  return {
    name := (← latest "name" text? fs).getD ""
    image := ← latest "image" text? fs
    command := ← latest "command" (list? text?) fs
    args := ← latest "args" (list? text?) fs
    securityContext := ← latest "securityContext" SecurityContext.ofJson? fs
    volumeMounts := ← latest "volumeMounts" (list? VolumeMount.ofJson?) fs }

def toJson (c : Container) : Json :=
  .obj <| optional "args" ofTexts c.args ++ optional "command" ofTexts c.command ++
    optional "image" .str c.image ++ [("name", .str c.name)] ++
    optional "securityContext" SecurityContext.toJson c.securityContext ++
    optional "volumeMounts" (fun ms => .arr (ms.map VolumeMount.toJson)) c.volumeMounts

end Container

namespace Toleration

def ofJson? (j : Json) : Option Toleration := do
  let fs ← lenient j
  return ⟨← latest "key" text? fs, ← latest "effect" text? fs⟩

def toJson (t : Toleration) : Json :=
  .obj <| optional "effect" .str t.effect ++ optional "key" .str t.key

end Toleration

namespace Volume

def source? (j : Json) : Option String := do return (← latest "name" text? (← lenient j)).getD ""

def ofJson? (j : Json) : Option Volume := do
  let fs ← lenient j
  return ⟨(← latest "name" text? fs).getD "", ← latest "configMap" source? fs⟩

def toJson (v : Volume) : Json :=
  .obj <| optional "configMap" (fun name => .obj [("name", .str name)]) v.configMap ++
    [("name", .str v.name)]

end Volume

namespace PodSpec

def ofJson? (j : Json) : Option PodSpec := do
  let fs ← lenient j
  return {
    containers := (← latest "containers" (list? Container.ofJson?) fs).getD []
    tolerations := ← latest "tolerations" (list? Toleration.ofJson?) fs
    volumes := ← latest "volumes" (list? Volume.ofJson?) fs }

def toJson (s : PodSpec) : Json :=
  .obj <| [("containers", .arr (s.containers.map Container.toJson))] ++
    optional "tolerations" (fun ts => .arr (ts.map Toleration.toJson)) s.tolerations ++
    optional "volumes" (fun vs => .arr (vs.map Volume.toJson)) s.volumes

end PodSpec

namespace PodTemplate

def ofJson? (j : Json) : Option PodTemplate := do
  let fs ← lenient j
  return ⟨← latest "metadata" Metadata.ofJson? fs, ← latest "spec" PodSpec.ofJson? fs⟩

def toJson (t : PodTemplate) : Json :=
  .obj <| optional "metadata" Metadata.toJson t.metadata ++ optional "spec" PodSpec.toJson t.spec

end PodTemplate

namespace DeploymentSpec

def selector? (j : Json) : Option (Option (Dict String)) := do
  latest "matchLabels" (dict? text?) (← lenient j)

def ofJson? (j : Json) : Option DeploymentSpec := do
  let fs ← lenient j
  return {
    replicas := ← latest "replicas" int32? fs
    matchLabels := (← latest "selector" selector? fs).join
    template := (← latest "template" PodTemplate.ofJson? fs).getD {} }

def toJson (s : DeploymentSpec) : Json :=
  .obj <| optional "replicas" .int s.replicas ++
    [("selector", .obj (optional "matchLabels" (ofDict .str) s.matchLabels)),
      ("template", s.template.toJson)]

end DeploymentSpec

namespace Deployment

def ofJson? (j : Json) : Option Deployment := do
  let fs ← ofKind "apps/v1" "Deployment" j
  return ⟨(← latest "metadata" Metadata.ofJson? fs).getD {},
    ← latest "spec" DeploymentSpec.ofJson? fs⟩

def toJson (d : Deployment) : Json :=
  .obj <| [("apiVersion", .str "apps/v1"), ("kind", .str "Deployment"),
    ("metadata", d.metadata.toJson)] ++ optional "spec" DeploymentSpec.toJson d.spec

end Deployment

end HollowNode.Api
