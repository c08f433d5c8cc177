import HollowNode.Calendar
import HollowNode.Json.Record

namespace HollowNode.Api

open Json

structure OwnerReference where
  apiVersion : String
  blockOwnerDeletion : Option Bool
  controller : Option Bool
  kind : String
  name : String
  uid : String
deriving DecidableEq, Repr

structure ManagedFields where
  apiVersion : Option String
  fieldsType : Option String
  fields : Option Json
  manager : Option String
  operation : Option String
  subresource : Option String
  time : Option Int
deriving Repr

/-- Times are seconds since 1970-01-01T00:00:00Z. -/
structure Metadata where
  annotations : Option (Dict String) := none
  creationTimestamp : Option Int := none
  deletionGracePeriodSeconds : Option Int := none
  deletionTimestamp : Option Int := none
  finalizers : Option (List String) := none
  generateName : Option String := none
  generation : Option Int := none
  labels : Option (Dict String) := none
  managedFields : Option (List ManagedFields) := none
  name : Option String := none
  ns : Option String := none
  ownerReferences : Option (List OwnerReference) := none
  resourceVersion : Option String := none
  selfLink : Option String := none
  uid : Option String := none
deriving Repr

instance : Inhabited Metadata := ⟨{}⟩

def OwnerReference.ofJson? (j : Json) : Option OwnerReference := do
  let fs ← lenient j
  return {
    apiVersion := (← latest "apiVersion" text? fs).getD ""
    blockOwnerDeletion := ← latest "blockOwnerDeletion" flag? fs
    controller := ← latest "controller" flag? fs
    kind := (← latest "kind" text? fs).getD ""
    name := (← latest "name" text? fs).getD ""
    uid := (← latest "uid" text? fs).getD "" }

def OwnerReference.toJson (r : OwnerReference) : Json :=
  .obj <| [("apiVersion", .str r.apiVersion)] ++
    optional "blockOwnerDeletion" .bool r.blockOwnerDeletion ++
    optional "controller" .bool r.controller ++ [("kind", .str r.kind), ("name", .str r.name),
    ("uid", .str r.uid)]

def time? (j : Json) : Option Int := (text? j).bind Calendar.timestamp?

def timeJson (t : Int) : Json := .str (Calendar.timestampText t)

def int64? : Json → Option Int := bounded? (-Nat.pow 2 63) (Nat.pow 2 63 - 1)

def int32? : Json → Option Int := bounded? (-Nat.pow 2 31) (Nat.pow 2 31 - 1)

def ManagedFields.ofJson? (j : Json) : Option ManagedFields := do
  let fs ← lenient j
  return {
    apiVersion := ← latest "apiVersion" text? fs
    fieldsType := ← latest "fieldsType" text? fs
    fields := ← latest "fieldsV1" some fs
    manager := ← latest "manager" text? fs
    operation := ← latest "operation" text? fs
    subresource := ← latest "subresource" text? fs
    time := ← latest "time" time? fs }

def ManagedFields.toJson (m : ManagedFields) : Json :=
  .obj <| optional "apiVersion" .str m.apiVersion ++ optional "fieldsType" .str m.fieldsType ++
    optional "fieldsV1" id m.fields ++ optional "manager" .str m.manager ++
    optional "operation" .str m.operation ++ optional "subresource" .str m.subresource ++
    optional "time" timeJson m.time

def Metadata.ofJson? (j : Json) : Option Metadata := do
  let fs ← lenient j
  return {
    annotations := ← latest "annotations" (dict? text?) fs
    creationTimestamp := ← latest "creationTimestamp" time? fs
    deletionGracePeriodSeconds := ← latest "deletionGracePeriodSeconds" int64? fs
    deletionTimestamp := ← latest "deletionTimestamp" time? fs
    finalizers := ← latest "finalizers" (list? text?) fs
    generateName := ← latest "generateName" text? fs
    generation := ← latest "generation" int64? fs
    labels := ← latest "labels" (dict? text?) fs
    managedFields := ← latest "managedFields" (list? ManagedFields.ofJson?) fs
    name := ← latest "name" text? fs
    ns := ← latest "namespace" text? fs
    ownerReferences := ← latest "ownerReferences" (list? OwnerReference.ofJson?) fs
    resourceVersion := ← latest "resourceVersion" text? fs
    selfLink := ← latest "selfLink" text? fs
    uid := ← latest "uid" text? fs }

def Metadata.toJson (m : Metadata) : Json :=
  .obj <| optional "annotations" (ofDict .str) m.annotations ++
    optional "creationTimestamp" timeJson m.creationTimestamp ++
    optional "deletionGracePeriodSeconds" .int m.deletionGracePeriodSeconds ++
    optional "deletionTimestamp" timeJson m.deletionTimestamp ++
    optional "finalizers" (fun xs => .arr (xs.map .str)) m.finalizers ++
    optional "generateName" .str m.generateName ++ optional "generation" .int m.generation ++
    optional "labels" (ofDict .str) m.labels ++
    optional "managedFields" (fun xs => .arr (xs.map ManagedFields.toJson)) m.managedFields ++
    optional "name" .str m.name ++ optional "namespace" .str m.ns ++
    optional "ownerReferences" (fun xs => .arr (xs.map OwnerReference.toJson)) m.ownerReferences ++
    optional "resourceVersion" .str m.resourceVersion ++ optional "selfLink" .str m.selfLink ++
    optional "uid" .str m.uid

/-- The name, or else the beginning of a generated name, or else nothing. -/
def Metadata.nameAny (m : Metadata) : String := (m.name.or m.generateName).getD ""

end HollowNode.Api
