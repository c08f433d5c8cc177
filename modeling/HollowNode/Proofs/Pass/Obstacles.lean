import HollowNode.Proofs.Pass.Course
import HollowNode.Proofs.Pass.Provision

namespace HollowNode

open Api Pass

namespace Simulation.World

variable (w : World) (ns name : String)

def machine? : Option KubemarkMachine := w.kubemarkMachines.get? ns name

def ownerName? : Option String := (w.machine? ns name).bind Pass.ownerName?

def owner? : Option Machine := (w.ownerName? ns name).bind (w.machines.get? ns)

def clusterName? : Option String := (w.owner? ns name).bind (·.clusterName)

def cluster? : Option Cluster := (w.clusterName? ns name).bind (w.clusters.get? ns)

def secretName : String := kubeconfigSecretName ((w.clusterName? ns name).getD "")

def missing (there : Bool) (result : Result) : Option Result := if there then none else some result

def awaited (there : Bool) (reason : String) : Option Result :=
  missing there (.ok (.deferred reason))

def unusable {ε α : Type} (failure : ε → Failure) : Except ε α → Option Result
  | .ok _ => none
  | .error fault => some (.error (failure fault))

variable {w ns name}

@[simp]
theorem missing_eq_none_iff {there : Bool} {result : Result} :
    missing there result = none ↔ there = true := by
  cases there <;> simp [missing]

@[simp]
theorem awaited_eq_none_iff {there : Bool} {reason : String} :
    awaited there reason = none ↔ there = true :=
  missing_eq_none_iff

@[simp]
theorem unusable_eq_none_iff {ε α : Type} {failure : ε → Failure} {e : Except ε α} :
    unusable failure e = none ↔ ∃ a, e = .ok a := by
  cases e <;> simp [unusable]

end Simulation.World

namespace Pass

open Simulation Step

variable {w : World} {settings : Settings} {α β : Type} {ns name : String} {h t : List Exchange}
  {result : Result}

def Query.isFetch : Query → Bool
  | kubemarkMachine .. | machine .. | cluster .. | kubeadmConfig .. | secretValue .. => true
  | csrClient _ | workload _ | createConfigMap _ | createDeployment _ | setProviderId ..
      | markReady .. | bootstrap _
  | clock | observe .. | release _ => false

/-- What a pass asks before it has all that it needs: only if its machine is gone it forgets a
session, its own. -/
def Sought (w : World) (ns name : String) (q : Query) : Prop :=
  q.isFetch = true ∨ w.machine? ns name = none ∧ q = .release (Csr.objectKey ns name)

theorem Sought.isLookup {q : Query} (sought : Sought w ns name q) : q.isLookup = true := by
  rcases sought with fetch | ⟨_, rfl⟩
  · cases q with
    | kubemarkMachine | machine | cluster | kubeadmConfig | secretValue => rfl
    | _ => cases fetch
  · rfl

def Told (w : World) (h : List Exchange) : Prop :=
  ∀ x ∈ h, x.query.isLookup = true → x.answer = (w.respond x.query).1

theorem Told.of_prefix (told : Told w t) (before : h <+: t) : Told w h :=
  fun x hx => told x (before.subset hx)

namespace Program

variable {asks : Query → Prop} {ends ends' : α → Prop} {allows : List Exchange → Query → Prop}
  {returns : List Exchange → α → Prop} {p : Program α}

/-- In a world a program asks only what it may, and comes only to what it may. -/
def Settles (w : World) (asks : Query → Prop) (ends : α → Prop) : Program α → Prop
  | done a => ends a
  | ask q next => asks q ∧ (next (w.respond q).1).Settles w asks ends

theorem settles_bind {ends : β → Prop} (p : Program α) (f : α → Program β) :
    (p.bind f).Settles w asks ends ↔ p.Settles w asks fun a => (f a).Settles w asks ends := by
  induction p with
  | done a => rfl
  | ask q next ih => exact and_congr_right fun _ => ih _

theorem Settles.imp (s : p.Settles w asks ends) (sub : ∀ a, ends a → ends' a) :
    p.Settles w asks ends' := by
  induction p with
  | done a => exact sub a s
  | ask q next ih => exact ⟨s.1, ih _ s.2⟩

end Program

namespace Step

variable {asks : Query → Prop} {obstacle obstacle' : Option Result} {goesOn : α → Prop}
  {goesOn' : β → Prop}

def Settles (w : World) (asks : Query → Prop) (obstacle : Option Result) (goesOn : α → Prop)
    (s : Step α) : Prop :=
  Program.Settles w asks
    (Except.rec (fun result => obstacle = some result) fun a => obstacle = none ∧ goesOn a) s.run

@[simp]
theorem settles_finish (outcome : Outcome) :
    (finish outcome : Step α).Settles w asks obstacle goesOn ↔
    obstacle = some (.ok outcome) := Iff.rfl

@[simp]
theorem settles_finish_bind (outcome : Outcome) (f : α → Step β) :
    (finish outcome >>= f).Settles w asks obstacle goesOn' ↔
    obstacle = some (.ok outcome) := Iff.rfl

@[simp]
theorem settles_defer (reason : String) :
    (defer reason : Step α).Settles w asks obstacle goesOn ↔
    obstacle = some (.ok (.deferred reason)) := Iff.rfl

@[simp]
theorem settles_defer_bind (reason : String) (f : α → Step β) :
    (defer reason >>= f).Settles w asks obstacle goesOn' ↔
    obstacle = some (.ok (.deferred reason)) := Iff.rfl

@[simp]
theorem settles_fail (f : Failure) :
    (fail f : Step α).Settles w asks obstacle goesOn ↔ obstacle = some (.error f) := Iff.rfl

theorem Settles.bind {s : Step α} {f : α → Step β} (hs : s.Settles w asks obstacle goesOn)
    (hf : ∀ a, goesOn a → (f a).Settles w asks obstacle' goesOn') :
    (s >>= f).Settles w asks (obstacle.or obstacle') goesOn' := by
  refine (Program.settles_bind _ _).2 (Program.Settles.imp hs fun r hr => ?_)
  cases r with
  | ok a =>
      obtain ⟨rfl, ha⟩ := hr
      exact hf a ha
  | error result =>
      obtain rfl : obstacle = some result := hr
      exact (rfl : (some result).or obstacle' = some result)

end Step

variable {p : Program Result} {q : Query} {next : q.Answer → Program Result}

end Pass

end HollowNode
