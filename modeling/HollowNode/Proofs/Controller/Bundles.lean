import HollowNode.Proofs.Controller.Sessions

namespace HollowNode.Controller

open Api Pass
open Bootstrap (ClientIdentity)

/-- A ConfigMap is submitted for a place in a cluster. A place that is taken stays as it is, and
what a pass takes for a failure may have had its effect. -/
inductive Submission (m : ConfigMap) :
    Option ConfigMap → Except Failure Creation → Option ConfigMap → Prop
  | created : Submission m none (.ok .created) (some m)
  | taken (there : ConfigMap) : Submission m (some there) (.ok .alreadyExists) (some there)
  | lost (before : Option ConfigMap) (f : Failure) : Submission m before (.error f) before
  | unheard (f : Failure) : Submission m none (.error f) (some m)

def Placed (name : String) (m : ConfigMap) : Prop :=
  m.metadata.ns = some "kube-system" ∧ m.metadata.name = some name

def StartsWith (certificate : Certificate) (text : String) : Prop :=
  ∃ block rest, text = Pem.encode block ++ rest ∧ block.label = ClientIdentity.certificateLabel ∧
    Certificate.ofDer? block.contents = some certificate

namespace Submission

variable {m : ConfigMap} {before after : Option ConfigMap} {answer : Except Failure Creation}

theorem keeps {there : ConfigMap} (s : Submission m before answer after) (h : before = some there) :
    after = some there := by
  cases s with
  | created | unheard => cases h
  | taken | lost => exact h

theorem origin {there : ConfigMap} (s : Submission m before answer after) (h : after = some there) :
    before = some there ∨ there = m := by
  cases s with
  | created | unheard => exact .inr (Option.some.inj h).symm
  | taken | lost => exact .inl h

theorem eq_of_created (s : Submission m before (.ok .created) after) : after = some m := by
  cases s
  rfl

theorem isSome {creation : Creation} (s : Submission m before (.ok creation) after) :
    after.isSome = true := by
  cases s <;> rfl

end Submission

namespace History

variable {settings : Settings} {keys : Nat → Key.Pair} {bootstraps : Bootstrap.System}
  {now n k : Nat} {name : String} {stored : Nat → Option ConfigMap} {m : ConfigMap} {flight : Nat}
  {answer : Except Failure Creation}

/-- What stands in the place for the ConfigMap of a node, at first nothing, when only the passes of
a controller submit one for it. -/
structure Stores (r : History settings keys bootstraps) (name : String)
    (stored : Nat → Option ConfigMap) : Prop where
  first : stored 0 = none
  submitted : ∀ n flight m answer, r.Hears n flight ⟨.createConfigMap m, answer⟩ → Placed name m →
    Submission m (stored n) answer (stored (n + 1))
  otherwise : ∀ n, (∀ flight m answer, r.Hears n flight ⟨.createConfigMap m, answer⟩ →
    ¬Placed name m) → stored (n + 1) = stored n

theorem Stores.step {r : History settings keys bootstraps} (s : r.Stores name stored) (n : Nat) :
    stored (n + 1) = stored n ∨ ∃ flight m answer, r.Hears n flight ⟨.createConfigMap m, answer⟩ ∧
    Placed name m ∧
      Submission m (stored n) answer (stored (n + 1)) := by
  by_cases h : ∃ flight m answer, r.Hears n flight ⟨.createConfigMap m, answer⟩ ∧ Placed name m
  · obtain ⟨flight, m, answer, hears, placed⟩ := h
    exact .inr ⟨flight, m, answer, hears, placed, s.submitted n flight m answer hears placed⟩
  · refine .inl
      (s.otherwise n fun flight m answer hears placed => h ⟨flight, m, answer, hears, placed⟩)

theorem Stores.keeps {r : History settings keys bootstraps} (s : r.Stores name stored) (hnk : n ≤ k)
    (h : stored n = some m) : stored k = some m := by
  induction hnk with
  | refl => exact h
  | @step k _ ih =>
      rcases s.step k with same | ⟨_, _, _, -, -, submission⟩
      · rw [same, ih]
      · exact submission.keeps ih

theorem Stores.origin {r : History settings keys bootstraps} (s : r.Stores name stored)
    (h : stored n = some m) :
    ∃ k < n, ∃ flight answer, r.Hears k flight ⟨.createConfigMap m, answer⟩ ∧ Placed name m := by
  induction n with
  | zero => cases s.first.symm.trans h
  | succ n ih =>
      have earlier (h : stored n = some m) :
          ∃ k < n + 1, ∃ flight answer, r.Hears k flight ⟨.createConfigMap m, answer⟩ ∧
            Placed name m := by
        obtain ⟨k, hk, rest⟩ := ih h
        exact ⟨k, Nat.lt_succ_of_lt hk, rest⟩
      rcases s.step n with same | ⟨flight, m', answer, hears, placed, submission⟩
      · exact earlier (same ▸ h)
      · rcases submission.origin h with h | rfl
        · exact earlier h
        · exact ⟨n, Nat.lt_succ_self n, flight, answer, hears, placed⟩

/-- A ConfigMap holds the identity that a pass got before a step, and the certificate of it was
valid when the pass got it. -/
def Certified (r : History settings keys bootstraps) (n : Nat) (f : Flight)
    (m : ConfigMap) : Prop :=
  ∃ k < n, ∃ identity certificate, r.Learns k f.id ⟨.bootstrap (.forNode f.ns f.name),
    .ok (.issued identity)⟩ ∧ m.data.bind (·.get? Workload.certKey) = some identity.stackedPem ∧
    StartsWith certificate identity.stackedPem ∧
    certificate.notBefore.millis ≤ (r.state k).bootstraps.now ∧
    (r.state k).bootstraps.now ≤ certificate.notAfter.millis

theorem certPem_configMap (b : Workload.Bundle) :
    b.configMap.data.bind (·.get? Workload.certKey) = some b.certPem := by
  simp [Workload.Bundle.configMap, Dict.ofList, Dict.get?_insert]

theorem valid_of_learns {r : History settings keys { now }} {request : Csr.IdentityRequest}
    {identity : ClientIdentity}
    (learns : r.Learns k flight ⟨.bootstrap request, .ok (.issued identity)⟩) :
    ∃ certificate, StartsWith certificate identity.stackedPem ∧
      certificate.notBefore.millis ≤ (r.state k).bootstraps.now ∧
      (r.state k).bootstraps.now ≤ certificate.notAfter.millis := by
  obtain ⟨call, answered⟩ := learns.answered
  obtain ⟨block, certificate, hlabel, hpem, hder, hstart, hend⟩ :=
    Bootstrap.History.handed_valid (mem_effects_sessions answered)
  refine ⟨certificate, ⟨block, identity.privateKeyPem, ?_, hlabel, hder⟩, hstart, hend⟩
  rw [ClientIdentity.stackedPem, hpem]

theorem certified_of_sourced {r : History settings keys { now }} {f : Flight} {p : Plan}
    {h : List Exchange} (sourced : p.Sourced settings f.ns f.name h)
    (happened : ∀ x ∈ h, ∃ k < n, r.Learns k f.id x) : r.Certified n f p.bundle.configMap := by
  obtain ⟨identity, issued, hcert⟩ := sourced.issued
  obtain ⟨k, hk, learns⟩ := happened _ issued
  obtain ⟨certificate, starts, hstart, hend⟩ := valid_of_learns learns
  exact ⟨k, hk, identity, certificate, learns, (certPem_configMap _).trans (congrArg some hcert),
    starts, hstart, hend⟩

theorem certified_of_hears {r : History settings keys { now }}
    (hears : r.Hears n flight ⟨.createConfigMap m, answer⟩) (placed : Placed name m) :
    ∃ f ∈ (r.state n).flights, f.name = name ∧ r.Certified n f m := by
  obtain ⟨⟨f, next, hfind, -, hp⟩, -⟩ := hears
  have hf : f ∈ (r.state n).flights := List.mem_of_find?_eq_some hfind
  obtain ⟨h, reached, happened⟩ := r.learnt n f hf
  rw [hp] at reached
  obtain ⟨p, sourced, rest, hnext⟩ := ((provision_meets settings).reaches reached).1.1.planned rfl
  have hmem : .createConfigMap m ∈ p.writes f.ns f.name := by
    rw [hnext]
    exact List.mem_append_right _ List.mem_cons_self
  obtain rfl : m = p.bundle.configMap := by simpa [Plan.writes] using hmem
  have hname : some p.bundle.name = some name := placed.2
  exact ⟨f, hf, sourced.named.symm.trans (Option.some.inj hname),
    certified_of_sourced sourced happened⟩

theorem submits_of_written {r : History settings keys bootstraps} {f : Flight} {p : Plan}
    {h : List Exchange} (happened : ∀ x ∈ h, ∃ k < n, r.Learns k f.id x) (clean : Clean f.name h)
    (all : written h = p.writes f.ns f.name) :
    ∃ k < n, ∃ creation, r.Hears k f.id ⟨.createConfigMap p.bundle.configMap, .ok creation⟩ := by
  have hmem : .createConfigMap p.bundle.configMap ∈ written h := by
    rw [all]
    exact .head _
  obtain ⟨hasked, -⟩ := List.mem_filter.1 hmem
  obtain ⟨⟨q, answer⟩, hx, rfl⟩ := List.mem_map.1 hasked
  obtain ⟨k, hk, learns⟩ := happened _ hx
  cases answer with
  | error fault => cases clean _ hx
  | ok creation => exact ⟨k, hk, creation, learns.hears rfl⟩

/-- When a pass for a node is done, the ConfigMap of the node is there and holds an identity that
was valid when a pass got it. It is the pass itself, unless it was told that there was a ConfigMap
already. -/
theorem provisioned_certified (r : History settings keys { now }) (stores : r.Stores name stored)
    {requeue : Option Nat} (ended : .ended flight (.ok .provisioned) requeue ∈ r.effects n) :
    ∃ f ∈ (r.state n).flights, f.id = flight ∧ (f.name = name → ∃ m, stored (n + 1) = some m ∧
      (∃ k ≤ n, ∃ g ∈ (r.state k).flights, g.name = name ∧ r.Certified k g m) ∧
      ((∀ k ≤ n, ∀ m', ¬r.Hears k flight ⟨.createConfigMap m', .ok .alreadyExists⟩) →
        r.Certified (n + 1) f m)) := by
  obtain ⟨f, hf, rfl, h, reached, happened⟩ := r.ended ended
  refine ⟨f, hf, rfl, ?_⟩
  rintro rfl
  have ends : Ends settings f.ns f.name h (.ok .provisioned) :=
    ((provision_meets settings).reaches reached).1
  obtain ⟨-, clean, p, sourced, all⟩ | ⟨early, -⟩ | ⟨_, _, _, failed, -⟩ := ends.cases_unfinished
  · obtain ⟨k, hk, creation, hears⟩ := submits_of_written happened clean all
    have placed : Placed f.name p.bundle.configMap := ⟨rfl, congrArg some sourced.named⟩
    have submission := stores.submitted k f.id _ _ hears placed
    obtain ⟨m, hm⟩ := Option.isSome_iff_exists.1 submission.isSome
    obtain ⟨l, hl, _, _, hears', placed'⟩ := stores.origin hm
    obtain ⟨g, hg, hname, certified⟩ := certified_of_hears hears' placed'
    refine ⟨m, stores.keeps hk hm, ⟨l, by omega, g, hg, hname, certified⟩, ?_⟩
    intro untold
    have hown : m = p.bundle.configMap := by
      cases creation with
      | created => exact Option.some.inj (hm.symm.trans submission.eq_of_created)
      | alreadyExists => exact absurd hears (untold k (Nat.le_of_lt_succ hk) _)
    rw [hown]
    exact certified_of_sourced sourced happened
  · exact absurd rfl early
  · cases failed

def submission? (c : Controller) : Event → Option (ConfigMap × Except Failure Creation)
  | .reply flight answer =>
    match (c.flights.find? (·.id = flight)).map (·.program) with
    | some (Program.ask (.createConfigMap m) _) => some (m, answer (.createConfigMap m))
    | _ => none
  | _ => none

def place (r : History settings keys bootstraps) : Nat → Option ConfigMap
  | 0 => none
  | n + 1 => (place r n).or ((submission? (r.state n) (r.event n)).map (·.1))

theorem submission?_eq_some_iff {r : History settings keys bootstraps} :
    submission? (r.state n) (r.event n) = some (m, answer) ↔
      ∃ flight, r.Hears n flight ⟨.createConfigMap m, answer⟩ := by
  constructor
  · intro h
    unfold submission? at h
    split at h
    next flight told hevent =>
      split at h
      next m next hprogram =>
        obtain ⟨rfl, rfl⟩ := Prod.mk.inj (Option.some.inj h)
        obtain ⟨f, hfind, hp⟩ := Option.map_eq_some_iff.1 hprogram
        have hstep := r.step_eq n
        rw [hevent] at hstep
        obtain ⟨g, hfind', idle, -⟩ := of_step_reply hstep
        obtain rfl : g = f := Option.some.inj (hfind'.symm.trans hfind)
        exact ⟨flight, ⟨g, next, hfind, idle, hp⟩, told, hevent, rfl⟩
      next => cases h
    next => cases h
  · rintro ⟨flight, ⟨f, next, hfind, -, hp⟩, told, hevent, htold⟩
    rw [hevent, submission?, hfind, Option.map_some, hp]
    exact congrArg (fun a => some (m, a)) htold

def truthful (r : History settings keys bootstraps) (name : String) (n : Nat) : Bool :=
  match submission? (r.state n) (r.event n) with
  | none => true
  | some (m, .ok creation) => m.metadata.ns = some "kube-system" && m.metadata.name = some name &&
    creation = if (r.place n).isSome then .alreadyExists else .created
  | some (_, .error _) => false

theorem stores_of_truthful {r : History settings keys bootstraps}
    (h : ∀ n, r.truthful name n = true) : r.Stores name r.place where
  first := rfl
  submitted n flight m answer hears _ := by
    have hsub := submission?_eq_some_iff.2 ⟨flight, hears⟩
    have hn := h n
    rw [truthful, hsub] at hn
    rw [place, hsub]
    cases answer with
    | error f => cases hn
    | ok creation =>
        simp only [Bool.and_eq_true, decide_eq_true_eq] at hn
        cases hplace : r.place n with
        | none =>
            obtain rfl : creation = .created := by simpa [hplace] using hn.2
            exact .created
        | some there =>
            obtain rfl : creation = .alreadyExists := by simpa [hplace] using hn.2
            exact .taken there
  otherwise n unplaced := by
    cases hsub : submission? (r.state n) (r.event n) with
    | none => simp [place, hsub]
    | some s =>
        obtain ⟨m, answer⟩ := s
        obtain ⟨flight, hears⟩ := submission?_eq_some_iff.1 hsub
        have hn := h n
        rw [truthful, hsub] at hn
        cases answer with
        | error f => cases hn
        | ok creation =>
            simp only [Bool.and_eq_true, decide_eq_true_eq] at hn
            exact absurd hn.1 (unplaced flight m _ hears)

/-- A certificate of no one's that is valid until some time in 1970. -/
def certificateUntil (notAfter : String) : Pem.Block :=
  let algorithm := Der.writeSequence [Der.write Der.objectIdentifier [42]]
  let bits := Der.writeBits []
  let time (text : String) := Der.write Der.utcTime (text.toList.map fun c => UInt8.ofNat c.toNat)
  let validity := Der.writeSequence [time "700101000000Z", time notAfter]
  let signed :=
    Der.writeSequence [Der.write Der.integer [1], algorithm, Der.writeSequence [], validity,
    Der.writeSequence [], Der.writeSequence [algorithm, bits]]
  ⟨ClientIdentity.certificateLabel, Der.writeSequence [signed, algorithm, bits]⟩

/-- A pass for a machine creates its ConfigMap and not its Deployment. Two days later its
certificate has expired, and another pass gets a new one. -/
def renewal : History {} (fun _ => ⟨Bootstrap.History.keyPem, [], fun _ => []⟩) { now := 0 } :=
  let told (q : Query) : q.Answer := (readyWorld.answer q).1
  let failing : (q : Query) → q.Answer
    | .createDeployment _ => .error (.submission "")
    | q => told q
  let repeating : (q : Query) → q.Answer
    | .createConfigMap _ => .ok .alreadyExists
    | q => told q
  let session (call : Nat) (notAfter : String) : List Event :=
    [.bootstrap (.acquire call), .bootstrap (.submitted call (.ok "csr")),
      .bootstrap (.polled call (.ok (some (Pem.encode (certificateUntil notAfter)))))]
  Run.ofEvents (.bootstrap (.advance 0)) (fun _ => rfl)
    ([.begin "n" "m" true] ++ List.replicate 8 (.reply 0 failing) ++ session 0 "700102000000Z" ++
      List.replicate 5 (.reply 0 failing) ++ [.bootstrap (.advance 172800000),
        .begin "n" "m" true] ++
      List.replicate 8 (.reply 1 repeating) ++ session 1 "700112000000Z" ++
        List.replicate 8 (.reply 1 repeating))

theorem renewal_course :
    (∀ n < 38, renewal.truthful "m" n = true) ∧
      ((renewal.effects 29).any fun
        | .bootstrap (.answer 1 (.ok (.issued _))) => true
        | _ => false) = true ∧
      ((renewal.state 29).flights.any fun f => f.id = 1 && f.call = some 1 &&
        match f.program with
        | .ask (.bootstrap request) _ => request = .forNode "n" "m"
        | _ => false) = true ∧
      ((renewal.effects 37).any fun
        | .ended 1 (.ok .provisioned) _ => true
        | _ => false) = true ∧
      (∀ f ∈ (renewal.state 37).flights, f.name = "m") ∧
      ((renewal.place 38).bind (·.data)).any (fun data => data.get? Workload.certKey =
        some (Pem.encode (certificateUntil "700102000000Z") ++ Bootstrap.History.keyPem)) = true ∧
      (Certificate.ofDer? (certificateUntil "700102000000Z").contents).any (fun certificate =>
        certificate.notAfter.millis < ((renewal.state 29).bootstraps.now : Int)) =
          true := by decide +kernel

theorem renewal_stores : renewal.Stores "m" renewal.place := by
  refine stores_of_truthful fun n => ?_
  rcases Nat.lt_or_ge n 38 with hn | hn
  · exact renewal_course.1 n hn
  · have idle : renewal.event n = .bootstrap (.advance 0) :=
      Run.event_ofEvents_of_le _ (fun _ => rfl) _ hn
    simp [truthful, idle, submission?]

theorem renewal_ends : ∃ requeue, .ended 1 (.ok .provisioned) requeue ∈ renewal.effects 37 := by
  obtain ⟨effect, heffect, ends⟩ := List.any_eq_true.1 renewal_course.2.2.2.1
  split at ends
  next requeue => exact ⟨requeue, heffect⟩
  next => cases ends

theorem renewal_learns :
    ∃ identity, renewal.Learns 29 1 ⟨.bootstrap (.forNode "n" "m"), .ok (.issued identity)⟩ := by
  obtain ⟨-, issued, waits, -⟩ := renewal_course
  obtain ⟨effect, answered, issued⟩ := List.any_eq_true.1 issued
  obtain ⟨f, hf, waits⟩ := List.any_eq_true.1 waits
  simp only [Bool.and_eq_true, decide_eq_true_eq] at waits
  obtain ⟨⟨hid, hcall⟩, asks⟩ := waits
  split at issued
  next identity =>
    split at asks
    next request next hp =>
      obtain rfl := of_decide_eq_true asks
      exact ⟨identity, f, hf, hid, ⟨next, hp⟩, .certificate hcall answered⟩
    next => cases asks
  next => cases issued

theorem renewal_expired :
    renewal.Stores "m" renewal.place ∧
    (∃ requeue, .ended 1 (.ok .provisioned) requeue ∈ renewal.effects 37) ∧
      (∃ identity, renewal.Learns 29 1 ⟨.bootstrap (.forNode "n" "m"), .ok (.issued identity)⟩) ∧
      ∃ m text certificate, renewal.place 38 = some m ∧
        m.data.bind (·.get? Workload.certKey) = some text ∧ StartsWith certificate text ∧
        certificate.notAfter.millis < (renewal.state 29).bootstraps.now := by
  obtain ⟨-, -, -, -, -, holds, expired⟩ := renewal_course
  obtain ⟨data, hdata, htext⟩ := (Option.any_eq_true _ _).1 holds
  obtain ⟨m, hm, hmdata⟩ := Option.bind_eq_some_iff.1 hdata
  obtain ⟨certificate, hder, hexpired⟩ := (Option.any_eq_true _ _).1 expired
  refine ⟨renewal_stores, renewal_ends, renewal_learns, m, _, certificate, hm, ?_,
    ⟨_, Bootstrap.History.keyPem, rfl, rfl, hder⟩, ?_⟩
  · rw [hmdata]
    exact of_decide_eq_true htext
  · exact of_decide_eq_true hexpired

theorem renewal_certified : ∃ requeue, .ended 1 (.ok .provisioned) requeue ∈ renewal.effects 37 ∧
    ∃ m, renewal.place 38 = some m ∧
      ∃ k ≤ 37, ∃ g ∈ (renewal.state k).flights, g.name = "m" ∧ renewal.Certified k g m := by
  obtain ⟨requeue, ended⟩ := renewal_ends
  obtain ⟨f, hf, -, done⟩ := provisioned_certified renewal renewal_stores ended
  obtain ⟨m, hm, certified, -⟩ := done (renewal_course.2.2.2.2.1 f hf)
  exact ⟨requeue, ended, m, hm, certified⟩

end History

end HollowNode.Controller
