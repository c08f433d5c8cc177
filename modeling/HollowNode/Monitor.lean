import HollowNode.Metrics

namespace HollowNode.Monitor

structure Response where
  status : Nat
  contentType : Option String := none
  allow : Option String := none
  body : String := ""
deriving DecidableEq, Repr

def plainText : String := "text/plain; charset=utf-8"

def ok (body : String) : Response := ⟨200, some plainText, none, body⟩

def page? (m : Metrics) (ready : Bool) : String → Option Response
  | "/metrics" => some ⟨200, some "text/plain; version=0.0.4", none, m.text⟩
  | "/healthz" => some (ok "ok")
  | "/readyz" => some (if ready then ok "ready" else { ok "starting" with status := 503 })
  | _ => none

def path (target : String) : String :=
  String.ofList (target.toList.takeWhile fun c => c ≠ '?' && c ≠ '#')

def answer (m : Metrics) (ready : Bool) (method target : String) : Response :=
  match page? m ready (path target) with
  | none => ⟨404, none, none, ""⟩
  | some page =>
    match method with
    | "GET" => page
    | "HEAD" => { page with body := "" }
    | _ => ⟨405, none, some "GET,HEAD", ""⟩

def foreignAddress (address : String) : ConfigFault :=
  .cannotListen address "Cannot assign requested address (os error 99)"

end HollowNode.Monitor
