import HollowNode.Yaml.Writer

namespace HollowNode.Api.Definition

open Yaml (Value)

def texts (fields : List (String × String)) : List (String × Value) :=
  fields.map fun p => (p.1, .text p.2)

def text (description : String) : Value :=
  .record (texts [("description", description), ("type", "string")])

def nullableText (description : String) : Value :=
  .record <| texts [("description", description)] ++ [("nullable", .bool true),
    ("type", .text "string")]

def textMap (description : String) : Value :=
  .record [("additionalProperties", .record (texts [("type", "string")])),
    ("description", .text description), ("type", .text "object")]

def taintEffect : Value :=
  .record [("description", .text "Taint effect"),
    ("enum", .list [.text "NoSchedule", .text "PreferNoSchedule", .text "NoExecute"]),
      ("type", .text "string")]

def taint : Value :=
  .record [("description", .text "A node taint as understood by `--register-with-taints`."),
    ("properties", .record [("effect", taintEffect), ("key", text "Taint key"),
      ("value", nullableText "Taint value (optional)")]),
    ("required", .list [.text "effect", .text "key"]), ("type", .text "object")]

def spec : Value :=
  .record [("properties", .record [
      ("extendedResources", textMap "Extended resources the hollow kubelet registers on its node"),
      ("nodeLabels", textMap "Labels the hollow kubelet registers on its node"),
      ("registerWithTaints", .record [
        ("description", .text "Taints the hollow kubelet registers on its node, in order"),
        ("items", taint), ("type", .text "array")])]),
    ("type", .text "object")]

def status : Value :=
  .record [("nullable", .bool true), ("properties", .record [
      ("providerID", nullableText "Provider ID reported for the hollow node (`kubemark://<name>`)"),
      ("ready", .record [("default", .bool false),
        ("description", .text "True once the identity bundle and the hollow node workload exist"),
        ("type", .text "boolean")])]),
    ("type", .text "object")]

def schema : Value :=
  .record [
    ("description",
      .text "Auto-generated derived type for KubemarkMachineSpec via `CustomResource`"),
    ("properties", .record [("spec", spec), ("status", status)]),
    ("required", .list [.text "spec"]), ("title", .text "KubemarkMachine"),
      ("type", .text "object")]

def column (name path type : String) : Value :=
  .record (texts [("jsonPath", path), ("name", name), ("type", type)])

def version : Value :=
  .record [
    ("additionalPrinterColumns", .list [column "Ready" ".status.ready" "boolean",
      column "ProviderID" ".status.providerID" "string"]),
    ("name", .text "v1alpha4"),
    ("schema", .record [("openAPIV3Schema", schema)]),
    ("served", .bool true), ("storage", .bool true),
    ("subresources", .record [("status", .record [])])]

def names : Value :=
  .record [("categories", .list []), ("kind", .text "KubemarkMachine"),
    ("plural", .text "kubemarkmachines"), ("shortNames", .list []),
    ("singular", .text "kubemarkmachine")]

def document : Value :=
  .record [("apiVersion", .text "apiextensions.k8s.io/v1"),
    ("kind", .text "CustomResourceDefinition"),
    ("metadata", .record (texts [("name", "kubemarkmachines.infrastructure.cluster.x-k8s.io")])),
    ("spec", .record [("group", .text "infrastructure.cluster.x-k8s.io"), ("names", names),
      ("scope", .text "Namespaced"), ("versions", .list [version])])]

end HollowNode.Api.Definition
