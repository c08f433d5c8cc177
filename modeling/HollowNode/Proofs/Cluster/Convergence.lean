import HollowNode.Proofs.Cluster.Stages
import HollowNode.Proofs.Controller.Readiness
import Mathlib.Logic.Relation

namespace HollowNode.Clusters

open Api Pass Simulation
open Program (Goes)

variable {settings : Settings} {first c d e : Clusters} {ns name : String} {p : Plan} {q : Query}
  {a : q.Answer} {h : List Exchange} {program : Program Result}
  {next : q.Answer → Program Result} {i k : Nat}

theorem Answers.unchanged (answers : Answers first c q a d) (hq : q.isWrite = false) : d = c := by
  cases answers with
  | prompt | unheard => exact respond_of_not_write hq
  | lost | stale | own => rfl

theorem shown_of_failing {f : Failure} (fails : World.failing f q = some a) :
    Exchange.Shown first ns name ⟨q, a⟩ := by
  cases q with
  | kubemarkMachine | machine | secretValue =>
      cases fails
      trivial
  | _ => trivial

theorem failure_of_failing {f : Failure} (hq : q.isWrite = true)
    (fails : World.failing f q = some a) : Exchange.failure? name ⟨q, a⟩ ≠ none := by
  cases q with
  | createConfigMap | createDeployment | setProviderId | markReady =>
      cases fails
      simp [Exchange.failure?]
  | _ => cases hq

theorem Stage.answers_shown (fresh : first.Fresh ns name) (stage : Stage settings first ns name k c)
    (answers : Answers first c q a d) : Exchange.Shown first ns name ⟨q, a⟩ := by
  cases answers with
  | prompt => exact stage.shown fresh q
  | lost fails | unheard fails => exact shown_of_failing fails
  | stale =>
      have start : Stage settings first ns name 0 first := .untouched
      exact start.shown fresh q
  | own own =>
      cases q with
      | bootstrap | clock | observe | release => trivial
      | _ => cases own

theorem Stage.answers_write (fresh : first.Fresh ns name) (stage : Stage settings first ns name k c)
    (fits : p.Fits settings first ns name) (hq : (p.writes ns name)[i]? = some q)
    (hwrite : q.isWrite = true) (hik : i ≤ k) (answers : Answers first c q a d) :
    ∃ k', k ≤ k' ∧ Stage settings first ns name k' d ∧
      (Exchange.failure? name ⟨q, a⟩ = none → i + 1 ≤ k') ∧
      (i < k → d = c) := by
  obtain ⟨-, further, unchanged⟩ := stage.write fresh fits hq hik
  cases answers with
  | prompt | unheard =>
      exact ⟨_, Nat.le_max_left .., further, fun _ => Nat.le_max_right .., unchanged⟩
  | lost fails =>
      refine ⟨k, Nat.le_refl k, stage, fun none => ?_, fun _ => rfl⟩
      exact absurd none (failure_of_failing hwrite fails)
  | stale read => simp [hwrite] at read
  | own own => simp [Query.isForeign_of_isWrite hwrite] at own

theorem Stage.le (stage : Stage settings first ns name k c) : k ≤ 4 := by
  cases stage with
  | untouched => exact Nat.zero_le 4
  | planned p fits hk hle => exact hle

theorem attempts_of_reaches {next : q.Answer → Program Result}
    (reached : (provision settings ns name).Reaches h (.ask q next)) :
    Attempts settings ns name h q :=
  ((provision_meets settings).reaches reached).1.1

theorem fits_of_attempts (attempts : Attempts settings ns name h q)
    (shown : ∀ x ∈ h, x.Shown first ns name) (hq : q.isWrite = true) :
    ∃ p : Plan, p.Fits settings first ns name ∧
      (p.writes ns name)[(written h).length]? = some q := by
  obtain ⟨p, sourced, rest, hnext⟩ := attempts.planned hq
  obtain ⟨p₀, fits, hsame⟩ := sourced.fits shown
  refine ⟨p₀, fits, ?_⟩
  rw [hsame, hnext]
  simp

/-- What a pass can do, by the answers that it got, to clusters that were at a stage. All of its
writes are done if none failed. -/
structure Advances (settings : Settings) (first : Clusters) (ns name : String) (k : Nat)
    (c : Clusters) (h : List Exchange) (k' : Nat) (d : Clusters) : Prop where
  later : k ≤ k'
  stage : Stage settings first ns name k' d
  shown : ∀ x ∈ h, x.Shown first ns name
  done : Clean name h → (written h).length ≤ k'
  still : k = 4 → d = c

theorem Advances.read {k' : Nat} (adv : Advances settings first ns name k c h k' d)
    (fresh : first.Fresh ns name) (hq : q.isWrite = false) (answers : Answers first d q a e) :
    Advances settings first ns name k c (h ++ [⟨q, a⟩]) k' e := by
  obtain rfl := answers.unchanged hq
  refine ⟨adv.later, adv.stage, ?_, ?_, adv.still⟩
  · intro x hx
    rcases List.mem_append.1 hx with hx | hx
    · exact adv.shown x hx
    · rw [List.mem_singleton.1 hx]
      exact adv.stage.answers_shown fresh answers
  · intro clean
    rw [written_of_read hq]
    apply adv.done
    exact fun x hx => clean x (List.mem_append_left _ hx)

theorem Advances.write {k' : Nat} (adv : Advances settings first ns name k c h k' d)
    (fresh : first.Fresh ns name) (attempts : Attempts settings ns name h q) (hq : q.isWrite = true)
    (answers : Answers first d q a e) :
    ∃ k'', Advances settings first ns name k c (h ++ [⟨q, a⟩]) k'' e := by
  obtain ⟨p, fits, hget⟩ := fits_of_attempts attempts adv.shown hq
  have hdone : (written h).length ≤ k' := adv.done attempts.clean
  obtain ⟨k'', hk'', stage, further, unchanged⟩ :=
    adv.stage.answers_write fresh fits hget hq hdone answers
  refine ⟨k'', Nat.le_trans adv.later hk'', stage, ?_, ?_, ?_⟩
  · intro x hx
    rcases List.mem_append.1 hx with hx | hx
    · exact adv.shown x hx
    · rw [List.mem_singleton.1 hx]
      exact adv.stage.answers_shown fresh answers
  · intro clean
    rw [written_of_write hq, List.length_append]
    apply further
    exact clean _ (List.mem_append_right _ List.mem_cons_self)
  · intro hk
    -- The last stage has all four writes behind it.
    have hi : (written h).length < 4 := (List.getElem?_eq_some_iff.1 hget).1
    have hk' : k ≤ k' := adv.later
    rw [unchanged (by omega), adv.still hk]

theorem Stage.goes (fresh : first.Fresh ns name) (stage : Stage settings first ns name k c)
    (goes : (provision settings ns name).Goes (Answers first) c h program d) :
    ∃ k', Advances settings first ns name k c h k' d := by
  induction goes with
  | start => exact ⟨k, Nat.le_refl k, stage, by simp, fun _ => Nat.zero_le k, fun _ => rfl⟩
  | @answer h q next d d' before a now ih =>
      obtain ⟨k', adv⟩ := ih
      cases hq : q.isWrite with
      | false => exact ⟨k', adv.read fresh hq now⟩
      | true => exact adv.write fresh (attempts_of_reaches before.reaches) hq now

/-- Some pass took the clusters from one state to another; it may have been given up on the way. -/
def Passed (settings : Settings) (first : Clusters) (ns name : String) (c d : Clusters) : Prop :=
  ∃ h program, (provision settings ns name).Goes (Answers first) c h program d

def Passes (settings : Settings) (first : Clusters) (ns name : String) :
    Clusters → Clusters → Prop :=
  Relation.ReflTransGen (Passed settings first ns name)

theorem Passes.stage (fresh : first.Fresh ns name) (passes : Passes settings first ns name c d)
    (stage : Stage settings first ns name k c) :
    ∃ k', k ≤ k' ∧ Stage settings first ns name k' d ∧ (k = 4 → d = c) := by
  induction passes with
  | refl => exact ⟨k, Nat.le_refl k, stage, fun _ => rfl⟩
  | @tail d e before passed ih =>
      obtain ⟨k', hk', stage', still⟩ := ih
      obtain ⟨h, program, goes⟩ := passed
      obtain ⟨k'', adv⟩ := stage'.goes fresh goes
      refine ⟨k'', Nat.le_trans hk' adv.later, adv.stage, ?_⟩
      intro hk
      have hk' : k' = 4 := Nat.le_antisymm stage'.le (hk ▸ hk')
      rw [adv.still hk', still hk]

theorem Stage.acknowledged (fresh : first.Fresh ns name) (stage : Stage settings first ns name k c)
    (goes : (provision settings ns name).Goes Prompt c h (.ask q next) d) (clean : Clean name h)
    (now : Prompt d q a e) : Exchange.failure? name ⟨q, a⟩ = none := by
  cases hq : q.isWrite with
  | false =>
      cases hf : Exchange.failure? name ⟨q, a⟩ with
      | none => rfl
      | some f =>
          have hwrite : q.isWrite = true := Exchange.isWrite_of_failure? hf
          simp [hq] at hwrite
  | true =>
      obtain ⟨k', adv⟩ := stage.goes fresh (goes.mono fun _ _ _ _ now => now.answers first)
      obtain ⟨p, fits, hget⟩ := fits_of_attempts (attempts_of_reaches goes.reaches) adv.shown hq
      rw [now.1 (Query.isForeign_of_isWrite hq)]
      exact (adv.stage.write fresh fits hget (adv.done clean)).1

theorem Stage.prompt (fresh : first.Fresh ns name) (stage : Stage settings first ns name k c)
    (goes : (provision settings ns name).Goes Prompt c h program d) :
    Clean name h ∧ ∀ connection f, ⟨.workload connection, .error f⟩ ∉ h := by
  induction goes with
  | start => exact ⟨by simp [Clean], by simp⟩
  | @answer h q next d d' before a now ih =>
      obtain ⟨clean, connected⟩ := ih
      constructor
      · apply clean.append
        exact stage.acknowledged fresh before clean now
      · intro connection f hmem
        rcases List.mem_append.1 hmem with hmem | hmem
        · exact connected connection f hmem
        · cases List.mem_singleton.1 hmem
          cases now.1 rfl

theorem Stage.done_of_ready {m : KubemarkMachine} (fresh : first.Fresh ns name)
    (stage : Stage settings first ns name k c)
    (hm : c.management.kubemarkMachines.get? ns name = some m) (ready : m.isReady = true) :
    k = 4 := by
  have unready (hm : first.management.kubemarkMachines.get? ns name = some m) : False := by
    rw [(fresh.machine m hm).1] at ready
    cases ready
  cases stage with
  | untouched => exact (unready hm).elim
  | planned p fits hk hle =>
      by_cases h3 : 3 < k
      · omega
      · simp only [after, if_neg h3] at hm
        exact (unready hm).elim

/-- The pass to the end: nothing failed, and a certificate was issued unless the machine was ready
before. -/
structure Completes (settings : Settings) (ns name : String) (c d : Clusters) : Prop where
  pass : ∃ h result, (provision settings ns name).Goes Prompt c h (.done result) d ∧
    ((∃ identity, ⟨.bootstrap (.forNode ns name), .ok (.issued identity)⟩ ∈ h) ∨
      ∃ m, c.management.kubemarkMachines.get? ns name = some m ∧ m.isReady = true)

theorem Completes.stage (fresh : first.Fresh ns name) (stage : Stage settings first ns name k c)
    (completes : Completes settings ns name c d) : Stage settings first ns name 4 d := by
  obtain ⟨h, result, goes, certified⟩ := completes.pass
  obtain ⟨clean, connected⟩ := stage.prompt fresh goes
  have ends : Ends settings ns name h result := ((provision_meets settings).reaches goes.reaches).1
  obtain ⟨k', adv⟩ := stage.goes fresh (goes.mono fun _ _ _ _ now => now.answers first)
  have hk' : k' = 4 := by
    apply Nat.le_antisymm adv.stage.le
    rcases certified with ⟨identity, issued⟩ | ⟨m, hm, ready⟩
    · cases ends with
      | finished p sourced clean all => simpa [all, Plan.writes] using adv.done clean
      | uncertified early none => exact absurd issued (none.unissued _ _)
      | unconnected connection none failure => exact absurd failure (connected _ _)
      | failed before x last failure =>
          rw [clean x (last ▸ List.mem_append_right before List.mem_cons_self)] at failure
          cases failure
    · rw [← stage.done_of_ready fresh hm ready]
      exact adv.later
  rw [← hk']
  exact adv.stage

/-- The hollow node of a machine is there as a plan has it. All else is as it was at first. -/
structure Provisioned (first : Clusters) (ns name : String) (p : Plan) (d : Clusters) : Prop where
  configMap : d.configMaps.filter (·.1 = ("kube-system", name)) =
    [(("kube-system", name), p.bundle.configMap)]
  deployment : d.deployments.filter (·.1 = ("kube-system", name)) =
    [(("kube-system", name), p.deployment)]
  owner : d.management.machines.get? ns p.owner.metadata.nameAny =
    some { p.owner with spec := { p.owner.spec with providerId := some ("kubemark://" ++ name) } }
  machine : d.management.kubemarkMachines.get? ns name =
    some { p.machine with status := some ⟨true, some ("kubemark://" ++ name)⟩ }
  last : d = first.after ns name p 4

theorem Stage.provisioned (fresh : first.Fresh ns name) (stage : Stage settings first ns name 4 d) :
    ∃ p : Plan, p.Fits settings first ns name ∧ Provisioned first ns name p d := by
  cases stage with
  | planned p fits hk hle =>
      refine ⟨p, fits, ?_, ?_, ?_, ?_, rfl⟩
      · exact Table.filter_put fresh.configMap p.bundle.configMap
      · exact Table.filter_put fresh.deployment p.deployment
      · exact Table.get?_put_self ..
      · exact Table.get?_put_self ..

/-- Passes for a machine that is new, however they fail, followed by one in which nothing does, end
in its hollow node. It is the same node whatever came before, but for the certificate, and it is not
changed by passes that follow. -/
theorem redelivery_converges (settings : Settings) (fresh : first.Fresh ns name)
    (passes : Passes settings first ns name first c) (completes : Completes settings ns name c d) :
    ∃ p : Plan, p.Fits settings first ns name ∧ Provisioned first ns name p d ∧
      (∀ c' d', Passes settings first ns name first c' → Completes settings ns name c' d' →
        ∃ certPem, Provisioned first ns name (p.withCertPem certPem) d') ∧
      ∀ e, Passes settings first ns name d e → e = d := by
  have completed {c d : Clusters} (passes : Passes settings first ns name first c)
      (completes : Completes settings ns name c d) : Stage settings first ns name 4 d := by
    obtain ⟨k, -, stage, -⟩ := passes.stage fresh .untouched
    exact completes.stage fresh stage
  have stage := completed passes completes
  obtain ⟨p, fits, provisioned⟩ := stage.provisioned fresh
  refine ⟨p, fits, provisioned, fun c' d' passes' completes' => ?_, fun e further => ?_⟩
  · obtain ⟨p', fits', provisioned'⟩ := (completed passes' completes').provisioned fresh
    rw [fits.unique fits'] at provisioned'
    exact ⟨_, provisioned'⟩
  · obtain ⟨k, -, -, still⟩ := further.stage fresh stage
    exact still rfl

def identity : Bootstrap.ClientIdentity := ⟨"", "", "", 1⟩

def oblige (c : Clusters) : (q : Query) → q.Answer × Clusters
  | .bootstrap _ => (.ok (.issued identity), c)
  | q => c.respond q

def interrupt (c : Clusters) : (q : Query) → q.Answer × Clusters
  | .createDeployment d => (.error (.submission ""), (c.respond (.createDeployment d)).2)
  | q => c.oblige q

theorem prompt_oblige (c : Clusters) (q : Query) : Prompt c q (c.oblige q).1 (c.oblige q).2 := by
  cases q with
  | bootstrap request => exact ⟨nofun, rfl⟩
  | _ => exact ⟨fun _ => rfl, rfl⟩

theorem answers_interrupt (c : Clusters) (q : Query) :
    Answers first c q (c.interrupt q).1 (c.interrupt q).2 := by
  cases q with
  | createDeployment d => exact .unheard rfl
  | _ => exact (prompt_oblige c _).answers first

def vacant : Clusters := { management := Controller.History.readyWorld }

def recorded (tell : Clusters → (q : Query) → q.Answer × Clusters) (c : Clusters) :
    Result × List Exchange × Clusters :=
  (provision {} "n" "m").run (record tell) ([], c)

theorem recorded_goes {told : Clusters → (q : Query) → q.Answer → Clusters → Prop}
    {tell : Clusters → (q : Query) → q.Answer × Clusters}
    (tells : ∀ c q, told c q (tell c q).1 (tell c q).2) {r : Result × List Exchange × Clusters}
    (hr : recorded tell c = r) : (provision {} "n" "m").Goes told c r.2.1 (.done r.1) r.2.2 := by
  rw [← hr]
  exact Goes.run tells .start

def interruption : Result × List Exchange × Clusters := recorded interrupt vacant

def completion : Result × List Exchange × Clusters := recorded oblige interruption.2.2

theorem vacant_fresh : vacant.Fresh "n" "m" where
  machine m hm := by
    simp only [vacant, Controller.History.readyWorld, Table.get?_cons, if_true,
      Option.some.injEq] at hm
    rw [← hm]
    exact ⟨rfl, rfl⟩
  owner ownerName m hm := by
    simp only [vacant, Controller.History.readyWorld, Table.get?_cons] at hm
    split at hm
    next hsame =>
      obtain ⟨-, rfl⟩ := Prod.mk.inj hsame
      cases hm
      exact ⟨rfl, rfl⟩
    next => cases hm
  configMap := rfl
  deployment := rfl

theorem completion_issues : (completion.2.1.any fun
    | ⟨.bootstrap request, .ok (.issued _)⟩ => request = .forNode "n" "m"
    | _ => false) = true := by decide +kernel

theorem interruption_converges :
    interruption.2.2.deployments.length = 1 ∧ interruption.1.isOk = false ∧
      (completion.2.2.management.machines.get? "n" "o").bind (·.spec.providerId) =
        some "kubemark://m" ∧
      (completion.2.2.management.kubemarkMachines.get? "n" "m").bind (·.status) =
        some ⟨true, some "kubemark://m"⟩ ∧
      ∃ p : Plan, p.Fits {} vacant "n" "m" ∧ Provisioned vacant "n" "m" p completion.2.2 ∧
        ∀ e, Passes {} vacant "n" "m" completion.2.2 e → e = completion.2.2 := by
  have passes : Passes {} vacant "n" "m" vacant interruption.2.2 :=
    .single ⟨_, _, recorded_goes answers_interrupt rfl⟩
  have completes : Completes {} "n" "m" interruption.2.2 completion.2.2 := by
    refine ⟨completion.2.1, completion.1, recorded_goes prompt_oblige rfl, .inl ?_⟩
    obtain ⟨x, hx, issued⟩ := List.any_eq_true.1 completion_issues
    split at issued
    next request identity =>
      cases of_decide_eq_true issued
      exact ⟨identity, hx⟩
    next => cases issued
  have owner : (completion.2.2.management.machines.get? "n" "o").bind (·.spec.providerId) =
      some "kubemark://m" := by decide +kernel
  have machine : (completion.2.2.management.kubemarkMachines.get? "n" "m").bind (·.status) =
      some ⟨true, some "kubemark://m"⟩ := by decide +kernel
  obtain ⟨p, fits, provisioned, -, still⟩ := redelivery_converges {} vacant_fresh passes completes
  refine ⟨by decide +kernel, by decide +kernel, owner, machine, p, fits, provisioned, still⟩

end HollowNode.Clusters
