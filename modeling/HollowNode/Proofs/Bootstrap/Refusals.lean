import HollowNode.Proofs.Bootstrap.Queueing
import HollowNode.Proofs.Csr.Status
import HollowNode.Proofs.Json.Rereading

namespace HollowNode.Bootstrap

open HollowNode.Bootstrap.System

namespace History

variable {limits : Limits} {keys : Nat → Key.Pair} {now n id : Nat}
  {r : History limits keys now} {c : Call}

/-- A call fails at a step. It is over, and its session with it. -/
structure FailsWith (r : History limits keys now) (n : Nat) (c : Call) (fault : Fault) : Prop where
  answered : r.effects n = [.answer c.id (.error fault)]
  failed : ((r.state (n + 1)).sessions c.session).state = .failed fault.message
  removed : (r.state (n + 1)).registry.get? c.request.key = none
  unregistered : ∀ key, ¬(r.state (n + 1)).Registered key c.session
  unissued : ∀ m identity, .answer c.id (.ok (.issued identity)) ∉ r.effects m

theorem unregistered_of_removed (hc : c ∈ (r.state n).calls)
    (removed : (r.state (n + 1)).registry.get? c.request.key = none) (key : String) :
    ¬(r.state (n + 1)).Registered key c.session := by
  -- A session that is registered anywhere is registered for the key of its calls.
  rintro ⟨entry, hk, hsession⟩
  have belongs := r.belongs (Nat.le_succ n) ((r.orderly n).calls c hc)
  obtain rfl := belongs.entries key entry hk hsession
  cases removed.symm.trans hk

theorem failsWith_of_after {fault : Fault} (hc : c ∈ (r.state n).calls)
    (hstate : r.state (n + 1) = ((r.state n).after keys c (.fail fault)).1)
    (heffects : r.effects n = ((r.state n).after keys c (.fail fault)).2) :
    r.FailsWith n c fault := by
  have answered : r.effects n = [.answer c.id (.error fault)] := heffects
  have removed : (r.state (n + 1)).registry.get? c.request.key = none := by
    have fails : (Move.fail fault).Fails := trivial
    rw [hstate, after_registry_of_fails fails, Dict.get?_erase, if_pos rfl]
  refine ⟨answered, ?_, removed, unregistered_of_removed hc removed, fun m identity issued => ?_⟩
  · rw [hstate, after_session]
    rfl
  · obtain rfl := answered_once (answered ▸ List.mem_singleton_self _) issued
    rw [answered] at issued
    cases List.mem_singleton.1 issued

theorem failsWith_of_polled {fault : Csr.Fault} (polled : r.event n = .polled id (.error fault)) :
    ∃ c ∈ (r.state n).calls, c.id = id ∧ r.FailsWith n c (.failed c.request.key fault.message) := by
  have about : (r.event n).call? = some id := by rw [polled]; rfl
  obtain ⟨c, hc, rfl, m, moves, hstate, heffects⟩ := (r.step n).of_call about
  refine ⟨c, hc, rfl, ?_⟩
  have fails : m = .fail (.failed c.request.key fault.message) := by
    rw [polled] at moves
    cases moves with
    | unreachable => rfl
  exact failsWith_of_after hc (fails ▸ hstate) (fails ▸ heffects)

/-- What is read in the status of a request, by itself and in the response of a server. It is a
fault if a condition refuses the request or the certificate is no text; the first condition that
refuses it says how, and only without one the certificate is issued. A call that polls a refused
status fails with the fault of the first refusal, its session is unregistered, and it never ends
with an identity. -/
theorem refusal_final :
    (∀ name s, Csr.Tells name s (Csr.certificateOf name s)) ∧
    ∀ name call, Csr.issuedCertificate name = .ok call → ∀ response s, Csr.ShowsStatus response s →
      Csr.Tells name s (call.read response) ∧
      ∀ limits keys now (r : History limits keys now) n id, r.event n =
        .polled id (call.read response) → s.Refused → ∃ condition, s.RefusedBy condition ∧
        ∃ c ∈ (r.state n).calls, c.id = id ∧
          r.FailsWith n c (.failed c.request.key (Csr.refusal name condition).message) := by
  refine ⟨Csr.tells_certificateOf, fun name call asks response s shows => ?_⟩
  have tells : Csr.Tells name s (call.read response) := by
    rw [Csr.read_of_issuedCertificate asks shows]
    exact Csr.tells_certificateOf name s
  refine ⟨tells, fun limits keys now r n id polled refused => ?_⟩
  obtain ⟨condition, hcondition⟩ := Csr.exists_refusedBy refused
  rw [tells.refused condition hcondition] at polled
  exact ⟨condition, hcondition, failsWith_of_polled polled⟩

open Json

def revokedStatus : Api.CsrStatus where
  certificate := some (Text.Utf8.encode "pem".toList)
  conditions := some [⟨none, none, "True", "Approved"⟩, ⟨none, none, "Unknown", "Failed"⟩,
    ⟨none, some "no", "True", "Denied"⟩, ⟨some "late", none, "True", "Failed"⟩]

def conditionJson (type status : String) (more : List (String × Json)) : Json :=
  .obj ([("type", .str type), ("status", .str status)] ++ more)

def revokedConditions : List Json :=
  [conditionJson "Approved" "True" [], conditionJson "Failed" "Unknown" [],
    conditionJson "Denied" "True" [("reason", .str "no")],
      conditionJson "Failed" "True" [("message", .str "late")]]

def revokedJson : List (String × Json) :=
  [("apiVersion", .str Api.CertificateSigningRequest.apiVersion),
    ("kind", .str "CertificateSigningRequest"),
    ("status", .obj [("certificate", .str "cGVt"), ("conditions", .arr revokedConditions)])]

def revokedResponse : Kube.Response := ⟨200, (Json.obj revokedJson).write⟩

def revoked : History {} (fun _ => ⟨"", [], fun _ => []⟩) 0 := ofEvents
  [.start ⟨"a", "a", ""⟩, .acquire 0, .submitted 0 (.ok "csr"),
    .polled 0 (Csr.issuedCertificate "csr" >>= fun call => call.read revokedResponse)]

theorem rereads_condition {type status : String} {more : List (String × Json)}
    (rereads : more.Forall₂ FieldRereads more) :
    Rereads (conditionJson type status more) (conditionJson type status more) :=
  .obj (.cons ⟨rfl, spells_str type⟩ (.cons ⟨rfl, spells_str status⟩ rereads))

theorem rereads_revokedConditions : revokedConditions.Forall₂ Rereads revokedConditions :=
  .cons (rereads_condition .nil) <| .cons (rereads_condition .nil) <|
    .cons (rereads_condition (.cons ⟨rfl, spells_str "no"⟩ .nil)) <|
    .cons (rereads_condition (.cons ⟨rfl, spells_str "late"⟩ .nil)) .nil

theorem rereads_revokedJson : revokedJson.Forall₂ FieldRereads revokedJson :=
  .cons ⟨rfl, spells_str _⟩ <| .cons ⟨rfl, spells_str _⟩ <|
    .cons ⟨rfl,
      .obj (.cons ⟨rfl, spells_str "cGVt"⟩ (.cons ⟨rfl, .arr rereads_revokedConditions⟩ .nil))⟩ .nil

theorem showsStatus_revoked : Csr.ShowsStatus revokedResponse revokedStatus := by
  have accepted : revokedResponse.refusal? = none := rfl
  have reads : Json.read revokedResponse.body = some (.obj revokedJson) :=
    read_ofList_eq_some_iff.2 (Rereads.obj rereads_revokedJson)
  have shown : (Api.CertificateSigningRequest.ofJson? (.obj revokedJson)).bind (·.status) =
      some revokedStatus := by
    decide +kernel
  obtain ⟨csr, hcsr, hs⟩ := Option.bind_eq_some_iff.1 shown
  refine ⟨csr, ?_, hs⟩
  rw [Kube.Response.object, accepted, reads, Option.bind_some, hcsr]

/-- The denial counts, not the certificate, and not the failure after it. -/
theorem revoked_fails :
    (∃ call, Csr.issuedCertificate "csr" = .ok call ∧
      Csr.ShowsStatus revokedResponse revokedStatus ∧
      revoked.event 3 = .polled 0 (call.read revokedResponse)) ∧
    revokedStatus.Refused ∧ revokedStatus.Certifies "pem" ∧
    ∃ c ∈ (revoked.state 3).calls, c.id = 0 ∧
      revoked.FailsWith 3 c (.failed c.request.key "CSR denied: csr: no") := by
  have first : revokedStatus.RefusedBy ⟨none, some "no", "True", "Denied"⟩ :=
    ⟨⟨rfl, .inl rfl⟩, [⟨none, none, "True", "Approved"⟩, ⟨none, none, "Unknown", "Failed"⟩],
      [⟨some "late", none, "True", "Failed"⟩], rfl, by simp [Api.CsrCondition.Refuses]⟩
  have refused : revokedStatus.Refused := ⟨_, .tail _ (.tail _ (.head _)), first.refuses⟩
  have sendable : (Csr.issuedCertificate "csr").toOption.isSome = true := by decide +kernel
  obtain ⟨call, hcall⟩ := Option.isSome_iff_exists.1 sendable
  have asks := eq_ok_of_toOption hcall
  have polled : revoked.event 3 = .polled 0 (call.read revokedResponse) := by
    show Event.polled 0 (Csr.issuedCertificate "csr" >>= fun call => call.read revokedResponse) = _
    rw [asks]
    rfl
  obtain ⟨tells, fails⟩ :=
    refusal_final.2 "csr" call asks revokedResponse revokedStatus showsStatus_revoked
  obtain ⟨condition, hcondition, c, hc, hid, failed⟩ := fails _ _ _ revoked 3 0 polled refused
  have same : Csr.refusal "csr" condition = .denied "csr: no" :=
    Except.error.inj ((tells.refused condition hcondition).symm.trans (tells.refused _ first))
  rw [same] at failed
  exact ⟨⟨call, asks, showsStatus_revoked, polled⟩, refused, rfl, c, hc, hid, failed⟩

end History

end HollowNode.Bootstrap
