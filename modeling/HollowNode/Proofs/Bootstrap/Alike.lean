import HollowNode.Bootstrap.System
import HollowNode.Proofs.Bootstrap.Identity

namespace HollowNode

variable {α β : Type} {hidden : Prop}

/-- Two values are equal, or related if something is hidden. -/
def UpTo (hidden : Prop) (related : α → α → Prop) (a b : α) : Prop := a = b ∨ hidden ∧ related a b

namespace UpTo

variable {related : α → α → Prop} {a b : α}

@[refl]
theorem refl (a : α) : UpTo hidden related a a := .inl rfl

theorem map (h : UpTo hidden related a b) {other : β → β → Prop} (f : α → β)
    (imp : related a b → other (f a) (f b)) : UpTo hidden other (f a) (f b) := by
  rcases h with rfl | ⟨hides, h⟩
  · exact .refl _
  · exact .inr ⟨hides, imp h⟩

theorem eq (h : UpTo hidden related a b) (shown : ¬hidden) : a = b := by
  rcases h with h | ⟨hides, _⟩
  · exact h
  · exact absurd hides shown

end UpTo

def readable (pem : String) : Bool := (Key.Private.ofPem? pem).isSome

/-- Two texts are equal private keys, or both can be read or neither, if private keys are hidden. -/
abbrev SameKey (hidden : Prop) : String → String → Prop :=
  UpTo hidden fun a b => readable a = readable b

abbrev SamePair (hidden : Prop) : Key.Pair → Key.Pair → Prop :=
  UpTo hidden fun p q => readable p.privatePem = readable q.privatePem

theorem SameKey.readable_eq {a b : String} (h : SameKey hidden a b) : readable a = readable b := by
  rcases h with rfl | ⟨_, h⟩
  · rfl
  · exact h

namespace Bootstrap

/-- A certificate with another key. -/
structure Rekeyed (i j : ClientIdentity) : Prop where
  same : j = { i with privateKeyPem := j.privateKeyPem }
  certificate : ∃ contents, i.certificatePem =
    Pem.encode ⟨ClientIdentity.certificateLabel, contents⟩

abbrev SameIdentity (hidden : Prop) : ClientIdentity → ClientIdentity → Prop := UpTo hidden Rekeyed

abbrev SameRequest (hidden : Prop) : Csr.SigningRequest → Csr.SigningRequest → Prop :=
  UpTo hidden fun r q => q = { r with csrPem := q.csrPem }

theorem sameRequest_new {p q : Key.Pair} (h : SamePair hidden p q) (request : Csr.IdentityRequest) :
    SameRequest hidden (.new request p) (.new request q) :=
  h.map (Csr.SigningRequest.new request) fun _ => rfl

namespace SameIdentity

variable {i j : ClientIdentity}

theorem outlives_eq (h : SameIdentity hidden i j) (now : Nat) :
    j.outlives now = i.outlives now := by
  rcases h with rfl | ⟨_, h⟩
  · rfl
  · rw [h.same]
    rfl

theorem summary_eq (h : SameIdentity hidden i j) (quote : String → String) :
    j.summary quote = i.summary quote := by
  rcases h with rfl | ⟨_, h⟩
  · rfl
  · rw [h.same]
    rfl

end SameIdentity

theorem ClientIdentity.ofPem_sameKey {a b : String} (h : SameKey hidden a b) (now : Nat)
    (text : String) :
    (∃ i j, ofPem now text a = .ok i ∧ ofPem now text b = .ok j ∧ SameIdentity hidden i j) ∨
      ∃ fault, ofPem now text a = .error fault ∧ ofPem now text b = .error fault := by
  have hread : (Key.Private.ofPem? a).isNone = (Key.Private.ofPem? b).isNone := by
    simpa only [readable, ← Option.not_isNone, Bool.not_inj_iff] using h.readable_eq
  rw [ofPem_eq, ofPem_eq, hread]
  cases leaf text with
  | error fault => exact .inr ⟨fault, rfl, rfl⟩
  | ok block =>
      dsimp only
      cases Certificate.ofDer? block.contents with
      | none => exact .inr ⟨_, rfl, rfl⟩
      | some certificate =>
          dsimp only
          split
          · exact .inr ⟨_, rfl, rfl⟩
          · split
            · exact .inr ⟨_, rfl, rfl⟩
            · refine .inl ⟨_, _, rfl, rfl, ?_⟩
              exact h.map (fun key => (⟨_, withLineEnd key, _, _⟩ : ClientIdentity)) fun _ =>
                ⟨rfl, block.contents, rfl⟩

inductive SessionState.Alike (hidden : Prop) : SessionState → SessionState → Prop
  | idle : Alike hidden .idle .idle
  | requesting : Alike hidden .requesting .requesting
  | polling (csr : String) (submittedAt polls : Nat) :
      Alike hidden (.polling csr submittedAt polls) (.polling csr submittedAt polls)
  | issued {i j : ClientIdentity} (same : SameIdentity hidden i j) : Alike hidden
      (.issued i) (.issued j)
  | failed (reason : String) : Alike hidden (.failed reason) (.failed reason)

theorem SessionState.Alike.summary_eq {s t : SessionState} (h : s.Alike hidden t)
    (quote : String → String) (instant : Nat → String) :
    t.summary quote instant = s.summary quote instant := by
  cases h with
  | issued same => simp only [summary, same.summary_eq]
  | idle | requesting | polling | failed => rfl

structure Store.Alike (hidden : Prop) (s t : Store) : Prop where
  privateKey : Option.Rel (SameKey hidden) s.privateKeyPem t.privateKeyPem
  certificate : t.certificatePem = s.certificatePem

structure Session.Alike (hidden : Prop) (s t : Session) : Prop where
  state : s.state.Alike hidden t.state
  store : s.store.Alike hidden t.store

inductive Answer.Alike (hidden : Prop) : Answer → Answer → Prop
  | issued {i j : ClientIdentity} (same : SameIdentity hidden i j) :
      Alike hidden (.ok (.issued i)) (.ok (.issued j))
  | pending (retryAfter : Nat) : Alike hidden (.ok (.pending retryAfter))
      (.ok (.pending retryAfter))
  | error (fault : Fault) : Alike hidden (.error fault) (.error fault)

theorem SessionState.Alike.refl (s : SessionState) : s.Alike hidden s := by
  cases s with
  | idle => exact .idle
  | requesting => exact .requesting
  | polling csr submittedAt polls => exact .polling csr submittedAt polls
  | issued identity => exact .issued (.refl identity)
  | failed reason => exact .failed reason

theorem SessionState.Alike.eq {s t : SessionState} (h : s.Alike hidden t) (shown : ¬hidden) :
    s = t := by
  cases h with
  | issued same => rw [same.eq shown]
  | idle | requesting | polling | failed => rfl

namespace Store

variable {s t : Store}

theorem alike_empty : ({} : Store).Alike hidden {} := ⟨.none, rfl⟩

theorem Alike.refl (s : Store) : s.Alike hidden s := by
  refine ⟨?_, rfl⟩
  cases s.privateKeyPem with
  | none => exact .none
  | some key => exact .some (.refl key)

theorem Alike.eq (h : s.Alike hidden t) (shown : ¬hidden) : s = t := by
  obtain ⟨privateKey, certificate⟩ := s
  obtain ⟨otherKey, other⟩ := t
  obtain ⟨hkey, hcertificate⟩ := h
  obtain rfl : other = certificate := hcertificate
  cases hkey with
  | none => rfl
  | some same => rw [same.eq shown]

theorem Alike.summary_eq (h : s.Alike hidden t) : t.summary = s.summary := by
  obtain ⟨privateKey, certificate⟩ := s
  obtain ⟨otherKey, other⟩ := t
  obtain ⟨hkey, hcertificate⟩ := h
  obtain rfl : other = certificate := hcertificate
  cases hkey with
  | none | some => rfl

theorem Alike.setPrivateKey {a b : String} (same : SameKey hidden a b) (s t : Store) :
    (s.setPrivateKey a).Alike hidden (t.setPrivateKey b) := ⟨.some same, rfl⟩

theorem Alike.updateCertificate (h : s.Alike hidden t) (pem : String) :
    (s.updateCertificate pem).Alike hidden (t.updateCertificate pem) := ⟨h.privateKey, rfl⟩

theorem Alike.current (h : s.Alike hidden t) (now : Nat) :
    (∃ i j, s.current now = .ok i ∧ t.current now = .ok j ∧ SameIdentity hidden i j) ∨
      ∃ fault, s.current now = .error fault ∧ t.current now = .error fault := by
  obtain ⟨privateKey, certificate⟩ := s
  obtain ⟨otherKey, other⟩ := t
  obtain ⟨hkey, hcertificate⟩ := h
  obtain rfl : other = certificate := hcertificate
  cases hkey with
  | none => cases other <;> exact .inr ⟨_, rfl, rfl⟩
  | some same =>
      cases other with
      | none => exact .inr ⟨_, rfl, rfl⟩
      | some text => exact ClientIdentity.ofPem_sameKey same now text

end Store

namespace Session.Alike

variable {s t : Session}

theorem empty : ({} : Session).Alike hidden {} := ⟨.idle, Store.alike_empty⟩

theorem refl (s : Session) : s.Alike hidden s := ⟨.refl s.state, .refl s.store⟩

theorem eq (h : s.Alike hidden t) (shown : ¬hidden) : s = t := by
  obtain ⟨state, store⟩ := s
  obtain ⟨otherState, other⟩ := t
  obtain ⟨hstate, hstore⟩ := h
  cases hstate.eq shown
  cases hstore.eq shown
  rfl

end Session.Alike

theorem Answer.Alike.refl (a : Answer) : a.Alike hidden a := by
  rcases a with fault | identity | retryAfter
  · exact .error fault
  · exact .issued (.refl identity)
  · exact .pending retryAfter

theorem Answer.Alike.eq {a b : Answer} (h : Answer.Alike hidden a b) (shown : ¬hidden) : a = b := by
  cases h with
  | issued same => rw [same.eq shown]
  | pending | error => rfl

end Bootstrap

end HollowNode
