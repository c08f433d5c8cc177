import HollowNode.Api.Metadata

namespace HollowNode.Api

open Json

structure ConfigMap where
  metadata : Metadata := {}
  data : Option (Dict String) := none
  binaryData : Option (Dict (List UInt8)) := none
  isImmutable : Option Bool := none
deriving Repr

structure Secret where
  metadata : Metadata := {}
  data : Option (Dict (List UInt8)) := none
deriving Repr

namespace ConfigMap

def ofJson? (j : Json) : Option ConfigMap := do
  let fs ← ofKind "v1" "ConfigMap" j
  return {
    metadata := (← latest "metadata" Metadata.ofJson? fs).getD {}
    data := ← latest "data" (dict? text?) fs
    binaryData := ← latest "binaryData" (dict? bytes?) fs
    isImmutable := ← latest "immutable" flag? fs }

def toJson (c : ConfigMap) : Json :=
  .obj <| [("apiVersion", .str "v1"), ("kind", .str "ConfigMap")] ++
    optional "binaryData" (ofDict ofBytes) c.binaryData ++ optional "data" (ofDict .str) c.data ++
    optional "immutable" .bool c.isImmutable ++ [("metadata", c.metadata.toJson)]

end ConfigMap

/-- The other fields of a Secret are read, so that they have to be well formed, and not kept. -/
def Secret.ofJson? (j : Json) : Option Secret := do
  let fs ← ofKind "v1" "Secret" j
  let _ ← latest "immutable" flag? fs
  let _ ← latest "stringData" (dict? text?) fs
  let _ ← latest "type" text? fs
  return {
    metadata := (← latest "metadata" Metadata.ofJson? fs).getD {}
    data := ← latest "data" (dict? bytes?) fs }

end HollowNode.Api
