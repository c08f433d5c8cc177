import HollowNode.Kube.Workload
import HollowNode.Proofs.Controller.Readiness
import HollowNode.Proofs.Except
import HollowNode.Proofs.Kube.Requests

namespace HollowNode

open Api Pass

def Pass.Exchange.creation? : Exchange → Option (Except Failure Creation)
  | ⟨.createConfigMap _, answer⟩ => some answer
  | ⟨.createDeployment _, answer⟩ => some answer
  | _ => none

namespace Kube

/-- An object is there after a response: it was made, or the server refused it because there is one
of its name. -/
def Response.Shows (r : Response) : Prop :=
  r.refusal? = none ∨ ∃ message code, r.refusal? = some (.api message "AlreadyExists" code)

/-- The server found a conflict that is none with an object of that name. -/
def Response.Conflicts (r : Response) : Prop :=
  ∃ message reason, r.refusal? = some (.api message reason Workload.conflict) ∧
    reason ≠ "AlreadyExists"

theorem Response.Conflicts.not_shows {r : Response} (conflicts : r.Conflicts) : ¬r.Shows := by
  obtain ⟨message, reason, refused, other⟩ := conflicts
  rintro (accepted | ⟨message', code, taken⟩)
  · cases refused.symm.trans accepted
  · cases refused.symm.trans taken
    exact other rfl

theorem refusal?_eq_some {j : Json} {fault : Fault} (h : refusal? j = some fault) :
    ∃ message reason code, fault = .api message reason code := by
  unfold refusal? at h
  split at h
  · simp only [Option.bind_eq_bind, Option.bind_eq_some_iff, Option.pure_def,
      Option.some.injEq] at h
    obtain ⟨_, _, code, _, message, _, reason, _, rfl⟩ := h
    exact ⟨message, reason, code.toNat, rfl⟩
  · cases h

theorem Response.refusal?_cases (r : Response) :
    r.refusal? = none ∨ ∃ message reason code, r.refusal? = some (.api message reason code) := by
  unfold Response.refusal?
  split
  · refine .inr ?_
    cases hread : (Json.read r.body).bind Kube.refusal? with
    | none => exact ⟨_, _, _, rfl⟩
    | some fault =>
        obtain ⟨_, hj⟩ := Option.bind_eq_some_iff.1 hread
        obtain ⟨message, reason, code, rfl⟩ := refusal?_eq_some hj.2
        exact ⟨message, reason, code, rfl⟩
  · exact .inl rfl

namespace Workload

variable {α : Type} {r : Resource} {metadata : Metadata} {object : Json} {read : Json → Option α}
  {response : Response} {call : Call Failure Creation}

theorem exists_create_of_make (made : make r metadata object read = .ok call) :
    ∃ ns sent, metadata.ns = some ns ∧ create r (some ns) object read = .ok sent ∧
      call = sent.mapRead outcome := by
  unfold make at made
  split at made
  · cases made
  next ns hns =>
    obtain ⟨sent, created, rfl⟩ := map_eq_ok_iff.1 made
    exact ⟨ns, sent, hns, mapError_eq_ok_iff.1 created, rfl⟩

theorem read_of_make (made : make r metadata object read = .ok call) (response : Response) :
    call.read response = outcome (response.object read) := by
  obtain ⟨ns, sent, -, created, rfl⟩ := exists_create_of_make made
  obtain ⟨request, -, made⟩ := bind_eq_ok_iff.1 created
  cases made
  rfl

/-- A request asks the server to make an object of the kind that is at a path. -/
def Posts (request : Request) (path : String) (object : Json) : Prop :=
  request.Asks .post (path ++ "?") "application/json" object

theorem posts_of_make (made : make r metadata object read = .ok call) :
    ∃ ns, metadata.ns = some ns ∧ Posts call.request (r.path (some ns)) object := by
  obtain ⟨ns, sent, hns, created, rfl⟩ := exists_create_of_make made
  exact ⟨ns, hns, asks_of_create created⟩

theorem posts_of_configMap {m : ConfigMap} (sent : configMap m = .ok call) :
    ∃ ns, m.metadata.ns = some ns ∧
      Posts call.request ("/api/v1/namespaces/" ++ ns ++ "/configmaps") m.toJson := by
  obtain ⟨ns, hns, posts⟩ := posts_of_make sent
  have path : configMaps.path (some ns) = "/api/v1/namespaces/" ++ ns ++ "/configmaps" := by
    simp [configMaps, Resource.path, Resource.root, toString, String.append_assoc]
  exact ⟨ns, hns, path ▸ posts⟩

theorem posts_of_deployment {d : Deployment} (sent : deployment d = .ok call) :
    ∃ ns, d.metadata.ns = some ns ∧
      Posts call.request ("/apis/apps/v1/namespaces/" ++ ns ++ "/deployments") d.toJson := by
  obtain ⟨ns, hns, posts⟩ := posts_of_make sent
  have path : deployments.path (some ns) =
      "/apis/apps/v1/namespaces/" ++ ns ++ "/deployments" := by
    simp [deployments, Resource.path, Resource.root, toString, String.append_assoc]
  exact ⟨ns, hns, path ▸ posts⟩

theorem outcome_of_refused {message reason : String} {code : Nat}
    (refused : response.refusal? = some (.api message reason code)) :
    outcome (response.object read) =
      if code = conflict then .ok .alreadyExists
      else .error (.kube (.api message reason code)) := by
  rw [Response.object, refused]
  rfl

theorem outcome_of_accepted (accepted : response.refusal? = none) :
    outcome (response.object read) = .ok .created ∨
    outcome (response.object read) = .error (.kube .body) := by
  rw [Response.object, accepted]
  cases (Json.read response.body).bind read with
  | none => exact .inr rfl
  | some object => exact .inl rfl

/-- What a server's response to the creation of an object becomes. -/
structure Reported (response : Response) (answer : Except Failure Creation) : Prop where
  accepted : response.refusal? = none → answer = .ok .created ∨ answer = .error (.kube .body)
  refused : ∀ message reason code, response.refusal? = some (.api message reason code) →
    answer = if code = conflict then .ok .alreadyExists
      else .error (.kube (.api message reason code))

theorem reported_of_make (made : make r metadata object read = .ok call) (response : Response) :
    Reported response (call.read response) where
  accepted haccepted := by
    rw [read_of_make made]
    exact outcome_of_accepted haccepted
  refused message reason code hrefused := by
    rw [read_of_make made]
    exact outcome_of_refused hrefused

theorem Reported.shows {creation : Creation} (reported : Reported response (.ok creation)) :
    response.Shows ∨ response.Conflicts := by
  rcases response.refusal?_cases with accepted | ⟨message, reason, code, refused⟩
  · exact .inl (.inl accepted)
  · have h := reported.refused message reason code refused
    split at h
    next hcode =>
      by_cases hreason : reason = "AlreadyExists"
      · exact .inl (.inr ⟨message, code, hreason ▸ refused⟩)
      · exact .inr ⟨message, reason, hcode ▸ refused, hreason⟩
    next => cases h

theorem Reported.shows_iff {answer : Except Failure Creation}
    (reported : Reported response answer) :
    (∀ creation, answer = .ok creation → response.Shows) ↔ ¬response.Conflicts := by
  constructor
  · intro shows conflicts
    have accepted : answer = .ok .alreadyExists := by
      obtain ⟨message, reason, refused, _⟩ := conflicts
      simpa using reported.refused message reason conflict refused
    exact conflicts.not_shows (shows _ accepted)
  · rintro other creation rfl
    exact reported.shows.resolve_right other

/-- An answer to the creation of an object was read from a response of the cluster's API server. -/
inductive Replies (response : Response) : Exchange → Prop
  | configMap {m : ConfigMap} {call : Call Failure Creation} (sent : configMap m = .ok call) :
      Replies response ⟨.createConfigMap m, call.read response⟩
  | deployment {d : Deployment} {call : Call Failure Creation} (sent : deployment d = .ok call) :
      Replies response ⟨.createDeployment d, call.read response⟩

theorem Replies.reported {x : Exchange} (replies : Replies response x) :
    ∃ answer, x.creation? = some answer ∧ Reported response answer := by
  cases replies with
  | configMap sent => exact ⟨_, rfl, reported_of_make sent response⟩
  | deployment sent => exact ⟨_, rfl, reported_of_make sent response⟩

end Workload

end Kube

namespace Pass

def Query.isReport : Query → Bool
  | setProviderId .. | markReady .. => true
  | _ => false

variable {settings : Settings} {ns name : String} {h : List Exchange} {q : Query}
  {next : q.Answer → Program Result}

theorem Query.isWrite_of_isReport (hq : q.isReport = true) : q.isWrite = true := by
  cases q with
  | setProviderId | markReady => rfl
  | _ => cases hq

theorem Plan.creations_of_report {p : Plan} {writes rest : List Query}
    (hnext : p.writes ns name = writes ++ q :: rest) (hq : q.isReport = true) :
    .createConfigMap p.bundle.configMap ∈ writes ∧ .createDeployment p.deployment ∈ writes := by
  rcases writes with _ | ⟨a, _ | ⟨b, writes⟩⟩
  · cases hnext
    cases hq
  · cases hnext
    cases hq
  · simp only [Plan.writes, List.cons_append, List.cons.injEq] at hnext
    obtain ⟨rfl, rfl, -⟩ := hnext
    exact ⟨.head _, .tail _ (.head _)⟩

theorem created_of_reports (reached : (provision settings ns name).Reaches h (.ask q next))
    (hq : q.isReport = true) :
    ∃ p : Plan, p.Sourced settings ns name h ∧
      (∃ creation, ⟨.createConfigMap p.bundle.configMap, .ok creation⟩ ∈ h) ∧
      ∃ creation, ⟨.createDeployment p.deployment, .ok creation⟩ ∈ h := by
  obtain ⟨⟨attempts, -⟩, -⟩ := (provision_meets settings).reaches reached
  rw [List.nil_append] at attempts
  obtain ⟨p, sourced, rest, hnext⟩ := attempts.planned (Query.isWrite_of_isReport hq)
  obtain ⟨hconfigMap, hdeployment⟩ := p.creations_of_report hnext hq
  have answered {w : Query} (hw : w ∈ written h) : ∃ answer, ⟨w, answer⟩ ∈ h := by
    obtain ⟨x, hx, rfl⟩ := List.mem_map.1 (List.mem_filter.1 hw).1
    exact ⟨x.answer, hx⟩
  refine ⟨p, sourced, ?_, ?_⟩
  · obtain ⟨answer, hx⟩ := answered hconfigMap
    cases answer with
    | error f => cases attempts.clean _ hx
    | ok creation => exact ⟨creation, hx⟩
  · obtain ⟨answer, hx⟩ := answered hdeployment
    cases answer with
    | error f => cases attempts.clean _ hx
    | ok creation => exact ⟨creation, hx⟩

/-- Each object is posted to its own namespace. A server's response to its creation is an object
made or a fault, or a refusal, and then it is told with its message, reason and code unless the code
is that of a conflict. An answer without a fault means that the object is there if and only if the
server did not find another conflict. When a pass reports, the responses to both of its creations
show the object, or refuse it for another conflict. -/
theorem creation_shows (settings : Settings) :
    (∀ m call, Kube.Workload.configMap m = .ok call → ∃ ns, m.metadata.ns = some ns ∧
      Kube.Workload.Posts call.request ("/api/v1/namespaces/" ++ ns ++ "/configmaps") m.toJson) ∧
    (∀ d call, Kube.Workload.deployment d = .ok call → ∃ ns, d.metadata.ns = some ns ∧
      Kube.Workload.Posts call.request ("/apis/apps/v1/namespaces/" ++ ns ++ "/deployments")
        d.toJson) ∧
    (∀ response x, Kube.Workload.Replies response x → ∃ answer, x.creation? = some answer ∧
      Kube.Workload.Reported response answer ∧
      ((∀ creation, answer = .ok creation → response.Shows) ↔ ¬response.Conflicts)) ∧
    ∀ ns name h (q : Query) next, (provision settings ns name).Reaches h (.ask q next) →
      q.isReport = true →
      (∀ x ∈ h, ∀ creation, x.creation? = some (.ok creation) →
        ∃ response, Kube.Workload.Replies response x) →
      ∃ p : Plan, p.Sourced settings ns name h ∧
        (∃ creation response, ⟨.createConfigMap p.bundle.configMap, .ok creation⟩ ∈ h ∧
          Kube.Workload.Replies response ⟨.createConfigMap p.bundle.configMap, .ok creation⟩ ∧
          (response.Shows ∨ response.Conflicts)) ∧
        ∃ creation response, ⟨.createDeployment p.deployment, .ok creation⟩ ∈ h ∧
          Kube.Workload.Replies response ⟨.createDeployment p.deployment, .ok creation⟩ ∧
          (response.Shows ∨ response.Conflicts) := by
  refine ⟨fun _ _ => Kube.Workload.posts_of_configMap, fun _ _ => Kube.Workload.posts_of_deployment,
    fun response x replies => ?_, fun ns name h q next reached hq read => ?_⟩
  · obtain ⟨answer, hanswer, reported⟩ := replies.reported
    exact ⟨answer, hanswer, reported, reported.shows_iff⟩
  · have shown {x : Exchange} {creation : Creation} (hx : x ∈ h)
        (created : x.creation? = some (.ok creation)) :
        ∃ response, Kube.Workload.Replies response x ∧ (response.Shows ∨ response.Conflicts) := by
      obtain ⟨response, replies⟩ := read x hx creation created
      obtain ⟨answer, hanswer, reported⟩ := replies.reported
      cases created.symm.trans hanswer
      exact ⟨response, replies, reported.shows⟩
    obtain ⟨p, sourced, ⟨first, hfirst⟩, second, hsecond⟩ := created_of_reports reached hq
    obtain ⟨response, replies, shows⟩ := shown hfirst rfl
    obtain ⟨response', replies', shows'⟩ := shown hsecond rfl
    exact ⟨p, sourced, ⟨first, response, hfirst, replies, shows⟩, second, response', hsecond,
      replies', shows'⟩

def refusing (reason : String) : Kube.Response where
  status := Kube.Workload.conflict
  body := "\x7b\"status\": \"Failure\", \"message\": \"\", \"reason\": \"" ++ reason ++
    "\", \"code\": 409\x7d"

def refused : (q : Query) → q.Answer
  | .createConfigMap m => Kube.Workload.configMap m >>= fun call =>
    call.read (refusing "AlreadyExists")
  | .createDeployment d => Kube.Workload.deployment d >>= fun call =>
    call.read (refusing "Conflict")
  | .bootstrap _ => .ok (.issued ⟨"", "", "", 0⟩)
  | q => (Controller.History.readyWorld.answer q).1

theorem replies_taken {m : ConfigMap} {creation : Creation}
    (told : .ok creation = refused (.createConfigMap m)) :
    Kube.Workload.Replies (refusing "AlreadyExists") ⟨.createConfigMap m, .ok creation⟩ := by
  obtain ⟨call, sent, hread⟩ := bind_eq_ok_iff.1 told.symm
  exact hread ▸ .configMap sent

theorem replies_conflict {d : Deployment} {creation : Creation}
    (told : .ok creation = refused (.createDeployment d)) :
    Kube.Workload.Replies (refusing "Conflict") ⟨.createDeployment d, .ok creation⟩ := by
  obtain ⟨call, sent, hread⟩ := bind_eq_ok_iff.1 told.symm
  exact hread ▸ .deployment sent

theorem replies_refused {x : Exchange} {creation : Creation} (told : x.answer = refused x.query)
    (created : x.creation? = some (.ok creation)) :
    ∃ response, Kube.Workload.Replies response x := by
  obtain ⟨q, answer⟩ := x
  cases q with
  | createConfigMap m =>
      obtain rfl := Option.some.inj created
      exact ⟨_, replies_taken told⟩
  | createDeployment d =>
      obtain rfl := Option.some.inj created
      exact ⟨_, replies_conflict told⟩
  | _ => cases created

def conflicted : List Exchange × Program Result := (provision {} "n" "m").follow refused 14

def Program.reports (ns name id : String) : Program Result → Bool
  | ask (.markReady ns' name' id') _ => ns' = ns && name' = name && id' = id
  | _ => false

theorem Program.eq_ask_of_reports {id : String} {p : Program Result}
    (h : p.reports ns name id = true) : ∃ next, p = .ask (.markReady ns name id) next := by
  cases p with
  | done => cases h
  | ask q next =>
      cases q with
      | markReady ns' name' id' =>
          have h : (ns' = ns && name' = name && id' = id) = true := h
          simp only [Bool.and_eq_true, decide_eq_true_eq] at h
          obtain ⟨⟨rfl, rfl⟩, rfl⟩ := h
          exact ⟨next, rfl⟩
      | _ => cases h

theorem conflicted_reports : ∃ next, (provision {} "n" "m").Reaches conflicted.1
    (.ask (.markReady "n" "m" "kubemark://m") next) := by
  have reports : conflicted.2.reports "n" "m" "kubemark://m" = true := by decide +kernel
  have reached : (provision {} "n" "m").Reaches ([] ++ conflicted.1) conflicted.2 :=
    Program.reaches_follow refused 14 .start
  obtain ⟨next, hp⟩ := Program.eq_ask_of_reports reports
  rw [List.nil_append, hp] at reached
  exact ⟨next, reached⟩

theorem conflicted_missing :
    (∃ next, (provision {} "n" "m").Reaches conflicted.1
      (.ask (.markReady "n" "m" "kubemark://m") next)) ∧
      ∃ d, ⟨.createDeployment d, .ok .alreadyExists⟩ ∈ conflicted.1 ∧
        Kube.Workload.Replies (refusing "Conflict") ⟨.createDeployment d, .ok .alreadyExists⟩ ∧
        ¬(refusing "Conflict").Shows := by
  obtain ⟨next, reached⟩ := conflicted_reports
  obtain ⟨p, -, -, creation, hd⟩ := created_of_reports reached rfl
  have conflict : (refusing "Conflict").refusal? =
    some (.api "" "Conflict" Kube.Workload.conflict) := by decide +kernel
  have told : .ok creation = refused (.createDeployment p.deployment) :=
    Program.answer_of_mem_follow hd
  have replies := replies_conflict told
  obtain ⟨answer, hanswer, reported⟩ := replies.reported
  obtain rfl : Except.ok creation = answer := Option.some.inj hanswer
  obtain rfl : creation = .alreadyExists := Except.ok.inj (reported.refused _ _ _ conflict)
  have conflicts : (refusing "Conflict").Conflicts := ⟨"", "Conflict", conflict, by decide⟩
  exact ⟨⟨next, reached⟩, p.deployment, hd, replies, conflicts.not_shows⟩

theorem conflicted_shows :
    (∃ next, (provision {} "n" "m").Reaches conflicted.1
      (.ask (.markReady "n" "m" "kubemark://m") next)) ∧
      ∃ p : Plan, p.Sourced {} "n" "m" conflicted.1 ∧ ∃ creation response,
        ⟨.createConfigMap p.bundle.configMap, .ok creation⟩ ∈ conflicted.1 ∧
        Kube.Workload.Replies response ⟨.createConfigMap p.bundle.configMap, .ok creation⟩ ∧
        (response.Shows ∨ response.Conflicts) := by
  obtain ⟨next, reached⟩ := conflicted_reports
  obtain ⟨p, sourced, configMap, -⟩ :=
    (creation_shows {}).2.2.2 "n" "m" conflicted.1 _ next reached rfl fun x hx creation created =>
    replies_refused (Program.answer_of_mem_follow hx) created
  exact ⟨⟨next, reached⟩, p, sourced, configMap⟩

end Pass

end HollowNode
