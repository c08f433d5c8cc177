import HollowNode.Bootstrap.Store

namespace HollowNode

theorem Certificate.bounds_of_isValidAt {c : Certificate} {now : Int} (h : c.isValidAt now = true) :
    c.notBefore.millis ≤ now ∧ now ≤ c.notAfter.millis := by
  simp only [isValidAt, Bool.and_eq_true, Bool.or_eq_true, decide_eq_true_eq] at h
  obtain ⟨hstart | ⟨hstart, _⟩, hend⟩ := h <;> exact ⟨by omega, hend⟩

namespace Bootstrap.ClientIdentity

theorem ofPem_eq (now : Nat) (certificatePem privateKeyPem : String) :
    ofPem now certificatePem privateKeyPem =
      match leaf certificatePem with
      | .error fault => .error fault
      | .ok block =>
        match Certificate.ofDer? block.contents with
        | none => .error (.unreadable .certificate)
        | some certificate =>
          if !certificate.isValidAt now
            then .error (.notValid certificate.notBefore certificate.notAfter)
          else if (Key.Private.ofPem? privateKeyPem).isNone then .error (.unreadable .key)
          else .ok ⟨Pem.encode ⟨certificateLabel, block.contents⟩, withLineEnd privateKeyPem,
            certificate.commonName, certificate.notAfter.seconds⟩ := by
  unfold ofPem
  cases leaf certificatePem with
  | error fault => rfl
  | ok block =>
      simp only [bind, Except.bind]
      cases Certificate.ofDer? block.contents <;> rfl

theorem ofPem_eq_ok_iff {now : Nat} {certificatePem privateKeyPem : String}
    {identity : ClientIdentity} :
    ofPem now certificatePem privateKeyPem = .ok identity ↔
      ∃ block certificate, leaf certificatePem = .ok block ∧
        Certificate.ofDer? block.contents = some certificate ∧ certificate.isValidAt now = true ∧
        (Key.Private.ofPem? privateKeyPem).isSome = true ∧
        identity = ⟨Pem.encode ⟨certificateLabel, block.contents⟩, withLineEnd privateKeyPem,
          certificate.commonName, certificate.notAfter.seconds⟩ := by
  rw [ofPem_eq]
  constructor
  · intro h
    cases hl : leaf certificatePem with
    | error fault => simp [hl] at h
    | ok block =>
        cases hc : Certificate.ofDer? block.contents with
        | none => simp [hl, hc] at h
        | some certificate =>
            simp only [hl, hc] at h
            split at h
            · cases h
            next hv =>
              split at h
              · cases h
              next hk =>
                cases h
                exact ⟨block, certificate, rfl, hc, by simpa using hv,
                  Option.isSome_iff_ne_none.2 (by simpa using hk), rfl⟩
  · rintro ⟨block, certificate, hl, hc, hv, hk, rfl⟩
    have hk' : (Key.Private.ofPem? privateKeyPem).isNone = false := by
      rw [← Option.not_isSome, hk, Bool.not_true]
    simp only [hl, hc, hv, hk', Bool.not_true, Bool.false_eq_true, if_false]

theorem leaf_eq_ok_iff {certificatePem : String} {block : Pem.Block} :
    leaf certificatePem = .ok block ↔
      ∃ blocks, Pem.blocks? certificatePem = some blocks ∧
        blocks.find? (·.label = certificateLabel) = some block := by
  unfold leaf
  cases Pem.blocks? certificatePem with
  | none => simp
  | some blocks => cases h : blocks.find? (·.label = certificateLabel) <;> simp [h]

theorem leaf_ne_noPair (certificatePem : String) : leaf certificatePem ≠ .error .noPair := by
  unfold leaf
  split
  · simp
  · split <;> simp

theorem ofPem_ne_noPair (now : Nat) (certificatePem privateKeyPem : String) :
    ofPem now certificatePem privateKeyPem ≠ .error .noPair := by
  rw [ofPem_eq]
  cases hl : leaf certificatePem with
  | error fault => exact fun h => leaf_ne_noPair certificatePem (hl.trans (by simpa using h))
  | ok block =>
      cases hc : Certificate.ofDer? block.contents with
      | none => simp [hc]
      | some certificate =>
          simp only [hc]
          split
          · simp
          · split <;> simp

theorem outlives_iff {identity : ClientIdentity} {now : Nat} :
    identity.outlives now = true ↔ (now : Int) < identity.notAfter * 1000 := by
  simp [outlives]

theorem not_outlives_iff {identity : ClientIdentity} {now : Nat} :
    identity.outlives now = false ↔ identity.notAfter * 1000 ≤ now := by
  simp [outlives]

end Bootstrap.ClientIdentity

end HollowNode
