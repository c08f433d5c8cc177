import HollowNode.Proofs.Bootstrap.Provenance
import Mathlib.Data.List.Induction

namespace HollowNode.Bootstrap.Store

inductive Write
  | setPrivateKey (pem : String)
  | updateCertificate (pem : String)
  | clear
deriving DecidableEq, Repr

def write (s : Store) : Write → Store
  | .setPrivateKey pem => s.setPrivateKey pem
  | .updateCertificate pem => s.updateCertificate pem
  | .clear => s.clear

def written (ws : List Write) : Store := ws.foldl write {}

/-- Of the keys that no clear follows, the last, with the writes after it. -/
structure LastKey (ws : List Write) (key : String) (later : List Write) : Prop where
  split : ∃ earlier, ws = earlier ++ .setPrivateKey key :: later
  kept : .clear ∉ later
  last : ∀ other, .setPrivateKey other ∉ later

structure LastCertificate (ws : List Write) (certificate : String) : Prop where
  split : ∃ earlier later, ws = earlier ++ .updateCertificate certificate :: later ∧
    ∀ other, .updateCertificate other ∉ later

variable {s : Store} {ws later : List Write} {w : Write} {key certificate : String}

theorem written_concat (ws : List Write) (w : Write) :
    written (ws ++ [w]) = (written ws).write w := by
  rw [written, List.foldl_append]
  rfl

theorem privateKeyPem_foldl_write (kept : .clear ∉ ws) (last : ∀ other, .setPrivateKey other ∉ ws) :
    (ws.foldl write s).privateKeyPem = s.privateKeyPem := by
  induction ws generalizing s with
  | nil => rfl
  | cons w ws ih =>
      rw [List.foldl_cons, ih (fun h => kept (.tail w h)) fun other h => last other (.tail w h)]
      cases w with
      | setPrivateKey pem => exact absurd (.head ws) (last pem)
      | updateCertificate pem => rfl
      | clear => exact absurd (.head ws) kept

theorem written_of_lastKey (h : LastKey ws key later) :
    written ws = later.foldl write ⟨some key, none⟩ := by
  obtain ⟨earlier, rfl⟩ := h.split
  rw [written, List.foldl_append, List.foldl_cons]
  rfl

theorem LastKey.concat (h : LastKey ws key later) (pem : String) :
    LastKey (ws ++ [.updateCertificate pem]) key (later ++ [.updateCertificate pem]) where
  split := by
    obtain ⟨earlier, rfl⟩ := h.split
    exact ⟨earlier, by rw [List.append_assoc, List.cons_append]⟩
  kept := by simpa using h.kept
  last := by simpa using h.last

theorem privateKeyPem_written_iff :
    (written ws).privateKeyPem = some key ↔ ∃ later, LastKey ws key later := by
  constructor
  · intro h
    induction ws using List.reverseRecOn with
    | nil => cases h
    | append_singleton ws w ih =>
        rw [written_concat] at h
        cases w with
        | setPrivateKey pem =>
            obtain rfl : pem = key := Option.some.inj h
            exact ⟨[], ⟨ws, rfl⟩, nofun, nofun⟩
        | updateCertificate pem =>
            obtain ⟨later, last⟩ := ih h
            exact ⟨_, last.concat pem⟩
        | clear => cases h
  · rintro ⟨later, h⟩
    rw [written_of_lastKey h, privateKeyPem_foldl_write h.kept h.last]

theorem LastKey.eq_updateCertificate (h : LastKey ws key later) (hw : w ∈ later) :
    ∃ pem, w = .updateCertificate pem := by
  cases w with
  | setPrivateKey pem => exact absurd hw (h.last pem)
  | updateCertificate pem => exact ⟨pem, rfl⟩
  | clear => exact absurd hw h.kept

theorem certificatePem_written_iff (h : LastKey ws key later) :
    (written ws).certificatePem = some certificate ↔ LastCertificate later certificate := by
  rw [written_of_lastKey h]
  constructor
  · intro recorded
    cases later using List.reverseRecOn with
    | nil => cases recorded
    | append_singleton earlier w =>
        obtain ⟨pem, rfl⟩ := h.eq_updateCertificate (List.mem_append_right earlier (.head []))
        rw [List.foldl_append] at recorded
        obtain rfl : pem = certificate := Option.some.inj recorded
        exact ⟨earlier, [], rfl, nofun⟩
  · rintro ⟨earlier, rest, rfl, newest⟩
    obtain rfl : rest = [] := by
      refine List.eq_nil_iff_forall_not_mem.2 fun w hw => ?_
      obtain ⟨pem, rfl⟩ := h.eq_updateCertificate (List.mem_append_right earlier (.tail _ hw))
      exact newest pem hw
    rw [List.foldl_append]
    rfl

theorem written_eq_iff : written ws = ⟨some key, some certificate⟩ ↔
    ∃ later, LastKey ws key later ∧ LastCertificate later certificate := by
  constructor
  · intro h
    obtain ⟨later, last⟩ := privateKeyPem_written_iff.1 (congrArg privateKeyPem h)
    exact ⟨later, last, (certificatePem_written_iff last).1 (congrArg certificatePem h)⟩
  · rintro ⟨later, last, newest⟩
    have hkey : (written ws).privateKeyPem = some key := privateKeyPem_written_iff.2 ⟨later, last⟩
    have hcertificate : (written ws).certificatePem = some certificate :=
      (certificatePem_written_iff last).2 newest
    rw [← hkey, ← hcertificate]

theorem current_eq_noPair_iff {now : Nat} :
    s.current now = .error .noPair ↔ ∀ key certificate, s ≠ ⟨some key, some certificate⟩ := by
  obtain ⟨key, certificate⟩ := s
  cases key with
  | none => cases certificate <;> simp [current]
  | some key =>
      cases certificate with
      | none => simp [current]
      | some certificate => simp [current, ClientIdentity.ofPem_ne_noPair]

/-- A store makes an identity of the last key that no clear follows and of the last certificate
after it, and has no pair where one of them is missing. What it gives as an identity is made of
nothing else. -/
theorem current_written (ws : List Write) (now : Nat) :
    (∀ key later certificate, LastKey ws key later → LastCertificate later certificate →
      (written ws).current now = ClientIdentity.ofPem now certificate key) ∧
    ((written ws).current now = .error .noPair ↔
      ¬∃ key later certificate, LastKey ws key later ∧ LastCertificate later certificate) ∧
    ∀ identity, (written ws).current now = .ok identity → ∃ key later certificate,
      LastKey ws key later ∧ LastCertificate later certificate ∧
        ClientIdentity.ofPem now certificate key = .ok identity := by
  have paired (key later certificate) (last : LastKey ws key later)
      (newest : LastCertificate later certificate) :
      (written ws).current now = ClientIdentity.ofPem now certificate key := by
    rw [written_eq_iff.2 ⟨later, last, newest⟩]
    rfl
  have missing : (written ws).current now = .error .noPair ↔
      ¬∃ key later certificate, LastKey ws key later ∧ LastCertificate later certificate := by
    simp only [current_eq_noPair_iff, ne_eq, written_eq_iff, not_exists]
    exact forall_congr' fun key => forall_comm
  refine ⟨paired, missing, fun identity h => ?_⟩
  by_cases found : ∃ key later certificate, LastKey ws key later ∧ LastCertificate later certificate
  · obtain ⟨key, later, certificate, last, newest⟩ := found
    exact ⟨key, later, certificate, last, newest,
      (paired key later certificate last newest).symm.trans h⟩
  · cases (missing.2 found).symm.trans h

/-- A pair is cleared, and the certificate that comes before the next key and the one that is
unusable do not count. -/
def renewal : List Write :=
  [.setPrivateKey "old", .updateCertificate "old", .clear, .updateCertificate "early",
    .setPrivateKey History.keyPem, .updateCertificate "unusable",
      .updateCertificate History.certificatePem]

theorem current_renewal :
    (∃ later, LastKey renewal History.keyPem later ∧ LastCertificate later History.certificatePem) ∧
      (∃ identity, (written renewal).current 0 = .ok identity ∧ ∃ key later certificate,
        LastKey renewal key later ∧ LastCertificate later certificate ∧
          ClientIdentity.ofPem 0 certificate key = .ok identity) ∧
      ¬∃ key later certificate, LastKey (renewal.take 5) key later ∧
      LastCertificate later certificate := by
  have last : LastKey renewal History.keyPem
      [.updateCertificate "unusable", .updateCertificate History.certificatePem] :=
    ⟨⟨renewal.take 4, rfl⟩, by simp, by simp⟩
  have newest :
      LastCertificate [.updateCertificate "unusable", .updateCertificate History.certificatePem]
      History.certificatePem := ⟨[.updateCertificate "unusable"], [], rfl, by simp⟩
  obtain ⟨paired, -, made⟩ := current_written renewal 0
  obtain ⟨identity, usable⟩ := History.ofPem_certificatePem
  have current := (paired _ _ _ last newest).trans usable
  exact ⟨⟨_, last, newest⟩, ⟨identity, current, made identity current⟩,
    (current_written (renewal.take 5) 0).2.1.1 rfl⟩

end HollowNode.Bootstrap.Store
