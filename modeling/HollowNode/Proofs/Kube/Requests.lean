import HollowNode.Kube.Http
import HollowNode.Proofs.Except

namespace HollowNode.Kube

open Json

variable {α : Type} {r : Resource} {ns : Option String} {name part text : String} {object : Json}
  {read : Json → Option α} {call : Call Fault α}

/-- A request to the address that a text gives, with a body. What stands behind a number sign in the
text is not sent. -/
structure Request.Asks (request : Request) (method : Method) (text contentType : String)
    (body : Json) : Prop where
  method : request.method = method
  target : request.target.toList = text.toList.takeWhile (· ≠ '#')
  contentType : request.contentType = some contentType
  body : request.body = some body

theorem Uri.toList_of_target {target : String} (h : target? text = some target) :
    target.toList = text.toList.takeWhile (· ≠ '#') := by
  unfold target? at h
  split at h
  · obtain ⟨cs, hcs, rfl⟩ := Option.map_eq_some_iff.1 h
    obtain ⟨-, hsent⟩ := Option.ite_none_right_eq_some.1 (show ite _ _ _ = _ from hcs)
    rw [String.toList_ofList, ← Option.some.inj hsent]
  · cases h

theorem asks_of_requestTo {method : Method} {contentType : String} {request : Request}
    (h : requestTo method text (some contentType) (some object) = .ok request) :
    request.Asks method text contentType object := by
  unfold requestTo at h
  split at h
  next target htarget =>
    cases h
    exact ⟨rfl, Uri.toList_of_target htarget, rfl, rfl⟩
  next => cases h

theorem asks_of_create (h : create r ns object read = .ok call) :
    call.request.Asks .post (r.path ns ++ "?") "application/json" object := by
  obtain ⟨request, sent, hcall⟩ := bind_eq_ok_iff.1 h
  cases hcall
  exact asks_of_requestTo sent

theorem asks_of_mergePatch (h : mergePatch r ns name part object read = .ok call) :
    call.request.Asks .patch (r.path ns ++ "/" ++ name ++ part ++ "?")
      "application/merge-patch+json" object := by
  obtain ⟨path, hpath, h⟩ := bind_eq_ok_iff.1 h
  obtain ⟨request, sent, hcall⟩ := bind_eq_ok_iff.1 h
  cases hcall
  unfold Resource.objectPath at hpath
  split at hpath
  · cases hpath
  · cases hpath
    exact asks_of_requestTo sent

end HollowNode.Kube
