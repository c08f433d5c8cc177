import HollowNode.Csr.Client
import HollowNode.Proofs.Except
import HollowNode.Proofs.Text.Utf8

namespace HollowNode

namespace Api

/-- A condition that holds and ends its request. -/
def CsrCondition.Refuses (c : CsrCondition) : Prop :=
  c.status = "True" ∧ (c.type = "Denied" ∨ c.type = "Failed")

def CsrCondition.explanation (c : CsrCondition) : String :=
  match c.message, c.reason with
  | some message, _ => message
  | none, some reason => reason
  | none, none => "no reason given"

namespace CsrStatus

def listed (s : CsrStatus) : List CsrCondition := s.conditions.getD []

def Refused (s : CsrStatus) : Prop := ∃ c ∈ s.listed, c.Refuses

/-- A condition is the first of those that refuse the request. -/
structure RefusedBy (s : CsrStatus) (c : CsrCondition) : Prop where
  refuses : c.Refuses
  first : ∃ before after, s.listed = before ++ c :: after ∧ ∀ d ∈ before, ¬d.Refuses

def Certifies (s : CsrStatus) (text : String) : Prop :=
  s.certificate = some (Text.Utf8.encode text.toList)

def Garbled (s : CsrStatus) : Prop :=
  ∃ bytes, s.certificate = some bytes ∧ bytes ≠ [] ∧ ∀ text, ¬s.Certifies text

end CsrStatus

end Api

namespace Csr

open Api

variable {name : String} {s : CsrStatus} {c : CsrCondition}

def refusal (name : String) (c : CsrCondition) : Fault :=
  let detail := s!"{name}: {c.explanation}"
  if c.type = "Denied" then .denied detail else .failed detail

/-- What an answer tells of a request whose status is known. -/
structure Tells (name : String) (s : CsrStatus) (answer : Except Fault (Option String)) : Prop where
  fails_iff : (∃ fault, answer = .error fault) ↔ s.Refused ∨ s.Garbled
  refused : ∀ c, s.RefusedBy c → answer = .error (refusal name c)
  garbled : ¬s.Refused → s.Garbled → ∃ detail, answer = .error (.api detail)
  issued_iff : ∀ text, answer = .ok (some text) ↔ ¬s.Refused ∧ text ≠ "" ∧ s.Certifies text
  pending_iff : answer = .ok none ↔ ¬s.Refused ∧ ∀ bytes, s.certificate = some bytes → bytes = []

theorem refusal?_eq_some_iff {fault : Fault} :
    refusal? name c = some fault ↔ c.Refuses ∧ refusal name c = fault := by
  have explained : (c.message.or c.reason).getD "no reason given" = c.explanation := by
    unfold CsrCondition.explanation
    cases c.message <;> cases c.reason <;> rfl
  unfold refusal? refusal CsrCondition.Refuses
  rw [explained]
  by_cases holds : c.status = "True"
  · rw [if_neg (not_not_intro holds)]
    split
    next type => simp [holds, type]
    next type => simp [holds, type]
    next other denied failed =>
      simp [show ¬(c.type = "Denied" ∨ c.type = "Failed") from not_or.2 ⟨denied, failed⟩]
  · simp [holds]

theorem refusal?_eq_none_iff : refusal? name c = none ↔ ¬c.Refuses := by
  rw [Option.eq_none_iff_forall_ne_some]
  constructor
  · exact fun none refuses => none _ (refusal?_eq_some_iff.2 ⟨refuses, rfl⟩)
  · exact fun kept fault some => kept (refusal?_eq_some_iff.1 some).1

theorem findSome?_refusal?_eq_some_iff {fault : Fault} :
    (s.conditions.getD []).findSome? (refusal? name) = some fault ↔
    ∃ c, s.RefusedBy c ∧ refusal name c = fault := by
  simp only [List.findSome?_eq_some_iff, refusal?_eq_some_iff, refusal?_eq_none_iff]
  constructor
  · rintro ⟨before, c, after, hs, ⟨refuses, hfault⟩, first⟩
    exact ⟨c, ⟨refuses, before, after, hs, first⟩, hfault⟩
  · rintro ⟨c, ⟨refuses, before, after, hs, first⟩, hfault⟩
    exact ⟨before, c, after, hs, ⟨refuses, hfault⟩, first⟩

theorem findSome?_refusal?_eq_none_iff :
    (s.conditions.getD []).findSome? (refusal? name) = none ↔ ¬s.Refused := by
  simp only [List.findSome?_eq_none_iff, refusal?_eq_none_iff, CsrStatus.Refused, CsrStatus.listed,
    not_exists, not_and]

theorem exists_refusedBy (refused : s.Refused) : ∃ c, s.RefusedBy c := by
  cases found : (s.conditions.getD []).findSome? (refusal? "") with
  | none => exact absurd refused (findSome?_refusal?_eq_none_iff.1 found)
  | some fault =>
      obtain ⟨c, hc, _⟩ := findSome?_refusal?_eq_some_iff.1 found
      exact ⟨c, hc⟩

theorem certificateOf_of_refusedBy (refused : s.RefusedBy c) :
    certificateOf name s = .error (refusal name c) := by
  rw [certificateOf, findSome?_refusal?_eq_some_iff.2 ⟨c, refused, rfl⟩]

theorem certificateOf_of_none (kept : ¬s.Refused)
    (absent : ∀ bytes, s.certificate = some bytes → bytes = []) :
    certificateOf name s = .ok none := by
  have nothing : s.certificate.filter (!·.isEmpty) = none := by
    rw [Option.filter_eq_none_iff]
    intro bytes hbytes
    simp [absent bytes hbytes]
  simp only [certificateOf, findSome?_refusal?_eq_none_iff.2 kept, nothing]

theorem filter_certificate {bytes : List UInt8} (present : s.certificate = some bytes)
    (filled : bytes ≠ []) :
    s.certificate.filter (!·.isEmpty) = some bytes := by simp [present, Option.filter, filled]

theorem certificateOf_of_certifies (kept : ¬s.Refused) {text : String} (filled : text ≠ "")
    (certifies : s.Certifies text) : certificateOf name s = .ok (some text) := by
  have bytes_ne : Text.Utf8.encode text.toList ≠ [] := by
    intro empty
    have nothing := Text.Utf8.decode_eq_ok_iff.2 empty.symm
    exact filled (String.toList_eq_nil_iff.1 (Except.ok.inj nothing).symm)
  have decodes : Text.Utf8.decode (Text.Utf8.encode text.toList) = .ok text.toList :=
    Text.Utf8.decode_eq_ok_iff.2 rfl
  simp only [certificateOf, findSome?_refusal?_eq_none_iff.2 kept,
    filter_certificate certifies bytes_ne, decodes, String.ofList_toList]

theorem certificateOf_of_garbled (kept : ¬s.Refused) (garbled : s.Garbled) :
    ∃ detail, certificateOf name s = .error (.api detail) := by
  obtain ⟨bytes, present, filled, untextual⟩ := garbled
  cases hdecode : Text.Utf8.decode bytes with
  | error fault =>
      simp only [certificateOf, findSome?_refusal?_eq_none_iff.2 kept,
        filter_certificate present filled, hdecode]
      exact ⟨_, rfl⟩
  | ok cs =>
      refine absurd ?_ (untextual (String.ofList cs))
      rw [CsrStatus.Certifies, present, String.toList_ofList, Text.Utf8.decode_eq_ok_iff.1 hdecode]

inductive Reads (s : CsrStatus) : Except Fault (Option String) → Prop
  | absent (absent : ∀ bytes, s.certificate = some bytes → bytes = []) : Reads s (.ok none)
  | text {text : String} (filled : text ≠ "") (certifies : s.Certifies text) :
      Reads s (.ok (some text))
  | garbled {detail : String} (garbled : s.Garbled) : Reads s (.error (.api detail))

theorem reads_certificateOf (kept : ¬s.Refused) : Reads s (certificateOf name s) := by
  by_cases absent : ∀ bytes, s.certificate = some bytes → bytes = []
  · rw [certificateOf_of_none kept absent]
    exact .absent absent
  by_cases certified : ∃ text, s.Certifies text
  · obtain ⟨text, certifies⟩ := certified
    have filled : text ≠ "" := by
      rintro rfl
      exact absent fun bytes present => Option.some.inj (present.symm.trans certifies)
    rw [certificateOf_of_certifies kept filled certifies]
    exact .text filled certifies
  · obtain ⟨bytes, h⟩ := Classical.not_forall.1 absent
    obtain ⟨present, filled⟩ := Classical.not_imp.1 h
    have garbled : s.Garbled := ⟨bytes, present, filled, not_exists.1 certified⟩
    obtain ⟨detail, answer⟩ : ∃ detail, certificateOf name s = .error (.api detail) :=
      certificateOf_of_garbled kept garbled
    rw [answer]
    exact .garbled garbled

theorem tells_certificateOf (name : String) (s : CsrStatus) :
    Tells name s (certificateOf name s) := by
  rcases Classical.em s.Refused with refused | kept
  · obtain ⟨c, hc⟩ := exists_refusedBy refused
    have answer : certificateOf name s = .error (refusal name c) := certificateOf_of_refusedBy hc
    exact {
      fails_iff := by simp [answer, refused]
      refused := fun d hd => certificateOf_of_refusedBy hd
      garbled := fun kept => absurd refused kept
      issued_iff := by simp [answer, refused]
      pending_iff := by simp [answer, refused] }
  · have reads : Reads s (certificateOf name s) := reads_certificateOf kept
    have garbled (h : s.Garbled) : ∃ detail, certificateOf name s = .error (.api detail) :=
      certificateOf_of_garbled kept h
    refine ⟨⟨?_, ?_⟩, fun c hc => ?_, fun _ => garbled, fun text => ⟨?_, ?_⟩, ?_, ?_⟩
    · rintro ⟨fault, answer⟩
      rw [answer] at reads
      cases reads with
      | garbled garbled => exact .inr garbled
    · rintro (refused | h)
      · exact absurd refused kept
      · obtain ⟨detail, answer⟩ := garbled h
        exact ⟨_, answer⟩
    · obtain ⟨before, after, hs, _⟩ := hc.first
      exact absurd ⟨c, by simp [hs], hc.refuses⟩ kept
    · intro answer
      rw [answer] at reads
      cases reads with
      | text filled certifies => exact ⟨kept, filled, certifies⟩
    · rintro ⟨_, filled, certifies⟩
      exact certificateOf_of_certifies kept filled certifies
    · intro answer
      rw [answer] at reads
      cases reads with
      | absent absent => exact ⟨kept, absent⟩
    · rintro ⟨_, absent⟩
      exact certificateOf_of_none kept absent

/-- A response of an API server shows the status of a request. -/
def ShowsStatus (response : Kube.Response) (s : CsrStatus) : Prop :=
  ∃ csr, response.object CertificateSigningRequest.ofJson? = .ok csr ∧ csr.status = some s

theorem read_of_issuedCertificate {call : Kube.Call Fault (Option String)}
    (asks : issuedCertificate name = .ok call) {response : Kube.Response}
    (shows : ShowsStatus response s) : call.read response = certificateOf name s := by
  obtain ⟨csr, hcsr, hs⟩ := shows
  unfold issuedCertificate at asks
  cases sends : Kube.get signingRequests none name CertificateSigningRequest.ofJson? with
  | error fault =>
      rw [sends] at asks
      cases asks
  | ok sent =>
      rw [sends] at asks
      cases asks
      obtain ⟨path, _, sends⟩ := bind_eq_ok_iff.1 sends
      obtain ⟨request, _, sends⟩ := bind_eq_ok_iff.1 sends
      cases sends
      show Except.mapError Fault.kube (Kube.orAbsent (response.object _)) >>= certificateIn name = _
      rw [hcsr]
      show certificateIn name (some csr) = _
      rw [certificateIn, hs]
      rfl

end Csr

end HollowNode
