import HollowNode.Json.Reader
import HollowNode.Json.Record
import HollowNode.Json.Writer
import HollowNode.Kube.Fault
import HollowNode.Kube.Uri

namespace HollowNode.Kube

open Json

inductive Method
  | get
  | post
  | patch
deriving DecidableEq, Repr

def Method.name : Method → String
  | get => "GET"
  | post => "POST"
  | patch => "PATCH"

structure Request where
  method : Method
  target : String
  contentType : Option String := none
  body : Option Json := none
deriving Repr

structure Response where
  status : Nat
  body : String
deriving DecidableEq, Repr

/-- A request, and what its response says. -/
structure Call (ε α : Type) where
  request : Request
  read : Response → Except ε α

def Call.mapRead {ε α δ β : Type} (c : Call ε α) (f : Except ε α → Except δ β) : Call δ β :=
  ⟨c.request, fun r => f (c.read r)⟩

/-- The resources of one kind; those of the core group have no group. -/
structure Resource where
  group : String := ""
  version : String
  plural : String
deriving DecidableEq, Repr

def Resource.root (r : Resource) : String :=
  if r.group.isEmpty then s!"/api/{r.version}/" else s!"/apis/{r.group}/{r.version}/"

def Resource.path (r : Resource) (ns : Option String) : String :=
  match ns with
  | some ns => s!"{r.root}namespaces/{ns}/{r.plural}"
  | none => r.root ++ r.plural

def unreadableReason : String := "Failed to parse error data"

def refusal? (j : Json) : Option Fault :=
  match record ["status", "message", "reason", "code"] j with
  | some [some status, message, reason, some code] => do
    let _ ← text? status
    let code ← bounded? 0 65535 code
    return .api (← defaulted "" text? message) (← defaulted "" text? reason) code.toNat
  | _ => none

def Response.refusal? (r : Response) : Option Fault :=
  if 400 ≤ r.status ∧ r.status < 600 then
    some (((Json.read r.body).bind Kube.refusal?).getD (.api r.body unreadableReason r.status))
  else none

def Response.object (read : Json → Option α) (r : Response) : Except Fault α :=
  match r.refusal? with
  | some fault => .error fault
  | none =>
    match (Json.read r.body).bind read with
    | some a => .ok a
    | none => .error .body

/-- What the server does not find is absent. -/
def orAbsent : Except Fault α → Except Fault (Option α)
  | .ok a => .ok (some a)
  | .error (.api _ "NotFound" _) => .ok none
  | .error fault => .error fault

def requestTo (method : Method) (text : String) (contentType : Option String) (body : Option Json) :
    Except Fault Request :=
  match Uri.target? text with
  | some target => .ok ⟨method, target, contentType, body⟩
  | none => .error .request

def Resource.objectPath (r : Resource) (ns : Option String) (name : String) : Except Fault String :=
  if name.isEmpty then .error .request else .ok s!"{r.path ns}/{name}"

def get (r : Resource) (ns : Option String) (name : String) (read : Json → Option α) :
    Except Fault (Call Fault (Option α)) := do
  let request ← requestTo .get (← r.objectPath ns name) none none
  return ⟨request, fun response => orAbsent (response.object read)⟩

def create (r : Resource) (ns : Option String) (object : Json) (read : Json → Option α) :
    Except Fault (Call Fault α) := do
  let request ← requestTo .post (r.path ns ++ "?") (some "application/json") (some object)
  return ⟨request, Response.object read⟩

/-- Merges a patch into an object, or into a part of it that has a path of its own. -/
def mergePatch (r : Resource) (ns : Option String) (name part : String) (patch : Json)
    (read : Json → Option α) : Except Fault (Call Fault α) := do
  let path := (← r.objectPath ns name) ++ part ++ "?"
  let request ← requestTo .patch path (some "application/merge-patch+json") (some patch)
  return ⟨request, Response.object read⟩

end HollowNode.Kube
