import HollowNode.Proofs.Bootstrap.Provenance
import HollowNode.Proofs.Pem

namespace HollowNode.Bootstrap.ClientIdentity

variable {now : Nat} {c c₁ c₂ k : String} {blocks : List Pem.Block} {b : Pem.Block}
  {identity : ClientIdentity}

theorem ended_withLineEnd (k : String) : Pem.Ended k.toList (withLineEnd k).toList := by
  unfold withLineEnd
  split
  · exact .inl rfl
  · exact .inr (by simp)

theorem withLineEnd_idem (k : String) : withLineEnd (withLineEnd k) = withLineEnd k := by
  have last : (withLineEnd k).toList.getLast? = some '\n' := by
    unfold withLineEnd
    split
    next h => exact h
    next => simp
  rw [withLineEnd, if_pos last]

theorem key_withLineEnd (k : String) :
    Key.Private.ofPem? (withLineEnd k) = Key.Private.ofPem? k := by
  rw [Key.Private.ofPem?, Key.Private.ofPem?, Pem.first?_ended (ended_withLineEnd k)]

theorem blocks?_withLineEnd (k : String) : Pem.blocks? (withLineEnd k) = Pem.blocks? k :=
  (Pem.blocks?_ended (ended_withLineEnd k)).symm

/-- The contents of the first certificate among some blocks. Of blocks the labels and contents are
known, and no headers. -/
def firstCertificate (blocks : List Pem.Block) : Option (List UInt8) :=
  (blocks.find? (·.label = certificateLabel)).map (·.contents)

theorem leaf_contents (h : Pem.blocks? c = some blocks) :
    (leaf c).map (·.contents) = (firstCertificate blocks).elim
      (.error (.unreadable .noCertificate)) .ok := by
  rw [leaf, h, firstCertificate]
  dsimp only
  cases blocks.find? (·.label = certificateLabel) <;> rfl

theorem ofPem_of_contents (same : (leaf c₁).map (·.contents) = (leaf c₂).map (·.contents))
    (k : String) : ofPem now c₁ k = ofPem now c₂ k := by
  rw [ofPem_eq, ofPem_eq]
  revert same
  cases leaf c₁ <;> cases leaf c₂
  · intro same
    rw [Except.error.inj same]
  · rintro ⟨⟩
  · rintro ⟨⟩
  next block₁ block₂ =>
    intro same
    have contents : block₁.contents = block₂.contents := Except.ok.inj same
    simp only [contents]

theorem label_ne_empty : certificateLabel ≠ "" := by decide

theorem dash_not_mem_label : '-' ∉ certificateLabel.toList := by decide

theorem leaf_encode (contents : List UInt8) :
    leaf (Pem.encode ⟨certificateLabel, contents⟩) = .ok ⟨certificateLabel, contents⟩ :=
  leaf_eq_ok_iff.2 ⟨_, Pem.blocks?_encode label_ne_empty dash_not_mem_label, by simp⟩

theorem ofPem_self (h : ofPem now c k = .ok identity) :
    ofPem now identity.certificatePem identity.privateKeyPem = .ok identity := by
  obtain ⟨block, certificate, -, hder, valid, key, rfl⟩ := ofPem_eq_ok_iff.1 h
  refine ofPem_eq_ok_iff.2 ⟨_, certificate, leaf_encode block.contents, hder, valid, ?_, ?_⟩
  · rwa [key_withLineEnd]
  · rw [withLineEnd_idem]

theorem label_of_leaf (h : leaf c = .ok b) : b.label = certificateLabel := by
  obtain ⟨blocks, -, found⟩ := leaf_eq_ok_iff.1 h
  simpa using List.find?_some found

theorem blocks?_stackedPem (h : ofPem now c k = .ok identity) :
    ∃ block, leaf c = .ok block ∧
      Pem.blocks? identity.stackedPem = (Pem.blocks? k).map (block :: ·) := by
  obtain ⟨block, certificate, hleaf, -, -, -, rfl⟩ := ofPem_eq_ok_iff.1 h
  refine ⟨block, hleaf, ?_⟩
  have written : (⟨certificateLabel, block.contents⟩ : Pem.Block) = block := by
    rw [← label_of_leaf hleaf]
  rw [stackedPem, Pem.blocks?_encode_append label_ne_empty dash_not_mem_label,
    blocks?_withLineEnd, written]

/-- Certificate texts with the same leaf make the same identity or fail alike, an identity is read
again from its own texts, and its stacked text is the leaf and then the key. -/
theorem identity_normal (now : Nat) :
    (∀ c₁ c₂ k blocks₁ blocks₂, Pem.blocks? c₁ = some blocks₁ → Pem.blocks? c₂ = some blocks₂ →
      firstCertificate blocks₁ = firstCertificate blocks₂ → ofPem now c₁ k = ofPem now c₂ k) ∧
    (∀ c k identity, ofPem now c k = .ok identity →
      ofPem now identity.certificatePem identity.privateKeyPem = .ok identity) ∧
    ∀ c k identity b, ofPem now c k = .ok identity → Pem.blocks? k = some [b] →
      ∃ block, leaf c = .ok block ∧ Pem.blocks? identity.stackedPem = some [block, b] := by
  refine ⟨?_, fun c k identity => ofPem_self, ?_⟩
  · intro c₁ c₂ k blocks₁ blocks₂ h₁ h₂ same
    exact ofPem_of_contents (by rw [leaf_contents h₁, leaf_contents h₂, same]) k
  · intro c k identity b h single
    obtain ⟨block, hleaf, stacked⟩ := blocks?_stackedPem h
    exact ⟨block, hleaf, by rw [stacked, single]; rfl⟩

theorem chain_normal :
    ∃ identity, ofPem 0 (Pem.encode ⟨"PRIVATE KEY", History.keyBytes⟩ ++ (History.certificatePem ++
        Pem.encode ⟨certificateLabel, []⟩)) History.keyPem = .ok identity ∧
      ofPem 0 identity.certificatePem identity.privateKeyPem = .ok identity ∧
      Pem.blocks? identity.stackedPem =
        some [⟨certificateLabel, History.certificateBytes⟩, ⟨"PRIVATE KEY", History.keyBytes⟩] := by
  let certificate : Pem.Block := ⟨certificateLabel, History.certificateBytes⟩
  let key : Pem.Block := ⟨"PRIVATE KEY", History.keyBytes⟩
  have keyNamed : key.label ≠ "" := by decide
  have keyDashless : '-' ∉ key.label.toList := by decide
  have single : Pem.blocks? History.keyPem = some [key] := Pem.blocks?_encode keyNamed keyDashless
  have alone : Pem.blocks? History.certificatePem = some [certificate] :=
    Pem.blocks?_encode label_ne_empty dash_not_mem_label
  have chain :
      Pem.blocks?
      (Pem.encode key ++ (Pem.encode certificate ++ Pem.encode ⟨certificateLabel, []⟩)) =
      some [key, certificate, ⟨certificateLabel, []⟩] := by
    rw [Pem.blocks?_encode_append keyNamed keyDashless,
      Pem.blocks?_encode_append label_ne_empty dash_not_mem_label,
      Pem.blocks?_encode label_ne_empty dash_not_mem_label]
    rfl
  obtain ⟨congruent, again, stacked⟩ := identity_normal 0
  obtain ⟨identity, usable⟩ := History.ofPem_certificatePem
  refine ⟨identity, (congruent _ _ _ _ _ chain alone rfl).trans usable, again _ _ _ usable, ?_⟩
  obtain ⟨block, hleaf, both⟩ := stacked _ _ _ _ usable single
  obtain ⟨blocks, hblocks, found⟩ := leaf_eq_ok_iff.1 hleaf
  cases alone.symm.trans hblocks
  cases found
  exact both

end HollowNode.Bootstrap.ClientIdentity
