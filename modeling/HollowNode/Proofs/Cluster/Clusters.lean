import HollowNode.Kube.Workload
import HollowNode.Proofs.Pass.Writes
import HollowNode.Simulation.World

namespace HollowNode

open Api Pass

namespace Simulation.Table

variable {α : Type} {t : Table α} {ns name : String} {a b : α}

theorem get?_cons (e : (String × String) × α) (t : Table α) (ns name : String) :
    get? (e :: t) ns name = if e.1 = (ns, name) then some e.2 else t.get? ns name := by
  by_cases he : e.1 = (ns, name) <;> simp [get?, he]

theorem ne_of_get?_eq_none (h : t.get? ns name = none) : ∀ e ∈ t, e.1 ≠ (ns, name) := by
  intro e he heq
  have hnone : t.find? (·.1 = (ns, name)) = none := by simpa [get?] using h
  simpa [heq] using List.find?_eq_none.1 hnone e he

theorem put_of_none (h : t.get? ns name = none) (a : α) :
    t.put ns name a = t ++ [((ns, name), a)] := by
  simp [put, h]

theorem put_of_some (h : t.get? ns name = some b) (a : α) :
    t.put ns name a = t.map fun e => if e.1 = (ns, name) then (e.1, a) else e := by simp [put, h]

theorem get?_append (t u : Table α) (ns name : String) :
    get? (t ++ u) ns name = (t.get? ns name).or (u.get? ns name) := by
  induction t with
  | nil => rfl
  | cons e t ih =>
      rw [List.cons_append, get?_cons, get?_cons, ih]
      split <;> rfl

theorem get?_map (t : Table α) (ns name : String) (a : α) (ns' name' : String) :
    get? (t.map fun e => if e.1 = (ns, name) then (e.1, a) else e) ns' name' =
      if (ns', name') = (ns, name) then (t.get? ns' name').map fun _ => a
      else t.get? ns' name' := by
  induction t with
  | nil => split <;> rfl
  | cons e t ih =>
      rw [List.map_cons, get?_cons, get?_cons, ih]
      by_cases hk : (ns', name') = (ns, name)
      · by_cases he : e.1 = (ns, name) <;> simp [hk, he]
      · by_cases he : e.1 = (ns, name)
        · simp [hk, he, Ne.symm hk]
        · simp [hk, he]

theorem get?_put (t : Table α) (ns name : String) (a : α) (ns' name' : String) :
    (t.put ns name a).get? ns' name' = if (ns', name') = (ns, name) then some a
      else t.get? ns' name' := by
  cases h : t.get? ns name with
  | none =>
      rw [put_of_none h, get?_append, get?_cons]
      by_cases hk : (ns', name') = (ns, name)
      · obtain ⟨rfl, rfl⟩ := Prod.mk.inj hk
        simp [h]
      · simp [hk, Ne.symm hk, get?]
  | some b =>
      rw [put_of_some h, get?_map]
      by_cases hk : (ns', name') = (ns, name)
      · obtain ⟨rfl, rfl⟩ := Prod.mk.inj hk
        simp [h]
      · simp [hk]

@[simp]
theorem get?_put_self (t : Table α) (ns name : String) (a : α) :
    (t.put ns name a).get? ns name = some a := by
  simp [get?_put]

@[simp]
theorem put_put (t : Table α) (ns name : String) (a b : α) :
    (t.put ns name a).put ns name b = t.put ns name b := by
  rw [put_of_some (get?_put_self t ns name a)]
  cases h : t.get? ns name with
  | none =>
      rw [put_of_none h, put_of_none h]
      have hsame : (t.map fun e => if e.1 = (ns, name) then (e.1, b) else e) = t :=
        (List.map_congr_left fun e he => if_neg (ne_of_get?_eq_none h e he)).trans (List.map_id t)
      simp [hsame]
  | some c =>
      rw [put_of_some h, put_of_some h, List.map_map]
      refine List.map_congr_left fun e _ => ?_
      by_cases he : e.1 = (ns, name) <;> simp [he]

theorem filter_put (h : t.get? ns name = none) (a : α) :
    (t.put ns name a).filter (·.1 = (ns, name)) = [((ns, name), a)] := by
  have hnone : t.filter (·.1 = (ns, name)) = [] := by
    refine List.filter_eq_nil_iff.2 fun e he => ?_
    simpa using ne_of_get?_eq_none h e he
  simp [put_of_none h, hnone]

end Simulation.Table

open Simulation

structure Clusters where
  management : World
  configMaps : Table ConfigMap := []
  deployments : Table Deployment := []

namespace Clusters

variable {shown c d : Clusters} {q : Query} {a : q.Answer}

def create {α : Type} (objects : Table α) (metadata : Metadata) (object : α) :
    Except Failure Creation × Table α :=
  let ns := metadata.ns.getD ""
  let name := metadata.name.getD ""
  match objects.get? ns name with
  | none => (Kube.Workload.outcome (.ok object), objects.put ns name object)
  | some _ =>
    let refusal : Kube.Fault :=
      .api s!"\"{name}\" already exists" "AlreadyExists" Kube.Workload.conflict
    (Kube.Workload.outcome (.error refusal : Except Kube.Fault α), objects)

def respond (c : Clusters) : (q : Query) → q.Answer × Clusters
  | .createConfigMap m =>
    let (answer, configMaps) := create c.configMaps m.metadata m
    (answer, { c with configMaps })
  | .createDeployment d =>
    let (answer, deployments) := create c.deployments d.metadata d
    (answer, { c with deployments })
  | q =>
    let (answer, management) := c.management.respond q
    (answer, { c with management })

theorem respond_of_not_write (hq : q.isWrite = false) : (c.respond q).2 = c := by
  cases q with
  | createConfigMap | createDeployment | setProviderId | markReady => cases hq
  | _ => rfl

/-- What a question can come to. A pass is told that it failed also where it was done, what it reads
may be the state of an earlier time, and its own controller may tell it anything. -/
inductive Answers (shown c : Clusters) (q : Query) : q.Answer → Clusters → Prop
  | prompt : Answers shown c q (c.respond q).1 (c.respond q).2
  | lost {f : Failure} {a : q.Answer} (fails : World.failing f q = some a) : Answers shown c q a c
  | unheard {f : Failure} {a : q.Answer} (fails : World.failing f q = some a) : Answers shown c q a
      (c.respond q).2
  | stale (read : q.isWrite = false) : Answers shown c q (shown.respond q).1 c
  | own (own : isForeign q = false) (a : q.Answer) : Answers shown c q a c

/-- A question to a cluster is answered from its state, and nothing fails. -/
def Prompt (c : Clusters) (q : Query) (a : q.Answer) (d : Clusters) : Prop :=
  (isForeign q = true → a = (c.respond q).1) ∧ d = (c.respond q).2

theorem Prompt.answers (h : Prompt c q a d) (shown : Clusters) : Answers shown c q a d := by
  obtain ⟨told, rfl⟩ := h
  cases foreign : isForeign q with
  | true =>
      rw [told foreign]
      exact .prompt
  | false =>
      have hq : q.isWrite ≠ true := fun hwrite => by
        simp [Query.isForeign_of_isWrite hwrite] at foreign
      rw [respond_of_not_write (Bool.eq_false_iff.2 hq)]
      exact .own foreign a

def record (tell : Clusters → (q : Query) → q.Answer × Clusters) (q : Query) :
    StateM (List Exchange × Clusters) q.Answer := fun (h, c) =>
  let (a, d) := tell c q
  (a, h ++ [⟨q, a⟩], d)

end Clusters

namespace Pass

variable {told told' : Clusters → (q : Query) → q.Answer → Clusters → Prop} {p p' : Program Result}
  {c d : Clusters} {h : List Exchange}

/-- A program got some answers, and by them came from one state of the clusters to another. -/
inductive Program.Goes (told : Clusters → (q : Query) → q.Answer → Clusters → Prop)
    (p : Program Result) (c : Clusters) : List Exchange → Program Result → Clusters → Prop
  | start : Goes told p c [] p c
  | answer {h : List Exchange} {q : Query} {next : q.Answer → Program Result} {d d' : Clusters}
      (before : Goes told p c h (.ask q next) d) (a : q.Answer) (now : told d q a d') :
      Goes told p c (h ++ [⟨q, a⟩]) (next a) d'

namespace Program.Goes

theorem reaches (goes : Goes told p c h p' d) : p.Reaches h p' := by
  induction goes with
  | start => exact .start
  | answer before a now ih => exact ih.answer a

theorem mono (goes : Goes told p c h p' d) (imp : ∀ c q a d, told c q a d → told' c q a d) :
    Goes told' p c h p' d := by
  induction goes with
  | start => exact .start
  | answer before a now ih => exact ih.answer a (imp _ _ _ _ now)

theorem run {tell : Clusters → (q : Query) → q.Answer × Clusters}
    (tells : ∀ c q, told c q (tell c q).1 (tell c q).2) (goes : Goes told p c h p' d) :
    let r := (p'.run (Clusters.record tell)) (h, d)
    Goes told p c r.2.1 (.done r.1) r.2.2 := by
  induction p' generalizing h d with
  | done result => exact goes
  | ask q next ih => exact ih _ (goes.answer _ (tells d q))

end Program.Goes

end Pass

end HollowNode
