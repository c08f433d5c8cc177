import HollowNode.Proofs.Backoff
import HollowNode.Proofs.Controller.Endings
import HollowNode.Proofs.Text.Pieces

namespace HollowNode

theorem Csr.objectKey_inj {ns ns' name name' : String} (h : '/' ∉ ns.toList)
    (h' : '/' ∉ ns'.toList) :
    objectKey ns name = objectKey ns' name' ↔ ns = ns' ∧ name = name' := by
  constructor
  · intro same
    have chars (ns name : String) :
        (objectKey ns name).toList = ns.toList ++ '/' :: name.toList := by
      simp [objectKey, toString]
    have hcut := Text.cutFirst_append h name.toList
    rw [← chars, same, chars, Text.cutFirst_append h'] at hcut
    obtain ⟨hns, hname⟩ := Prod.mk.inj (Option.some.inj hcut)
    exact ⟨(String.toList_injective hns).symm, (String.toList_injective hname).symm⟩
  · rintro ⟨rfl, rfl⟩
    rfl

namespace Controller

open Pass

variable {settings : Settings} {keys : Nat → Key.Pair} {bootstraps : Bootstrap.System}
  {c : Controller} {n : Nat} {ns name : String}

def Event.isDeletion (ns name : String) : Event → Bool
  | .deleted ns' name' => ns = ns' && name = name'
  | _ => false

/-- The result of a pass that ended, if it was a delivered one for a machine. -/
def resultFor? (ns name : String) (ended : Option (Flight × Result)) : Option Result :=
  (ended.filter fun p => p.1.delivered && ns = p.1.ns && name = p.1.name).map (·.2)

theorem get_backoffs_deleted (c : Controller) (ns name key : String) :
    (c.deleted ns name).backoffs.get key = if key = Csr.objectKey ns name then .standard
    else c.backoffs.get key := Backoffs.get_reset ..

theorem Keeps.get_backoffs {e : Event} {heard : Option (Nat × Exchange)} {c' : Controller}
    {fs : List Effect} {ended : Option (Flight × Result)}
    (keeps : Keeps settings keys c e heard c' fs ended)
    (gone : ∀ ns name, e = .deleted ns name → '/' ∉ ns.toList)
    (plain : ∀ f ∈ c.flights, '/' ∉ f.ns.toList) (hns : '/' ∉ ns.toList) :
    c'.backoffs.get (Csr.objectKey ns name) =
      if e.isDeletion ns name then .standard
      else match resultFor? ns name ended with
        | some (.ok _) => .standard
        | some (.error _) => (c.backoffs.get (Csr.objectKey ns name)).next
        | none => c.backoffs.get (Csr.objectKey ns name) := by
  have undeletion (undeleted : ∀ ns name, e ≠ .deleted ns name) : e.isDeletion ns name = false := by
    cases e with
    | deleted ns' name' => exact absurd rfl (undeleted ns' name')
    | _ => rfl
  cases keeps with
  | kept undeleted kept => simp [undeletion undeleted, kept.backoffs, resultFor?]
  | deleted ns' name' event after =>
      subst event after
      have hkey : Csr.objectKey ns name = Csr.objectKey ns' name' ↔ ns = ns' ∧ name = name' :=
        Csr.objectKey_inj hns (gone ns' name' rfl)
      rw [get_backoffs_deleted]
      simp [Event.isDeletion, hkey, resultFor?]
  | @ended f result base x undeleted kept ends =>
      have hkey : Csr.objectKey ns name = Csr.objectKey f.ns f.name ↔ ns = f.ns ∧ name = f.name :=
        Csr.objectKey_inj hns (plain f ends.mem)
      rw [ends.after, backoffs_conclude, undeletion undeleted, if_neg Bool.false_ne_true,
        kept.backoffs, resultFor?]
      cases delivered : f.delivered with
      | false => simp [delivered, Option.filter]
      | true =>
          by_cases own : ns = f.ns ∧ name = f.name <;> cases result <;>
            simp [delivered, own, hkey, Option.filter, Backoffs.after]

/-- A machine that is gone loses its backoff and its session, and nothing else changes. -/
structure Drops (c c' : Controller) (ns name : String) : Prop where
  backoffs : ∀ ns' name', '/' ∉ ns'.toList → c'.backoffs.running.get? (Csr.objectKey ns' name') =
    if ns' = ns ∧ name' = name then none else c.backoffs.running.get? (Csr.objectKey ns' name')
  sessions : ∀ ns' name', '/' ∉ ns'.toList →
    c'.bootstraps.registry.get? (Csr.IdentityRequest.forNode ns' name').key =
    if ns' = ns ∧ name' = name then none
    else c.bootstraps.registry.get? (Csr.IdentityRequest.forNode ns' name').key
  rest : c = { c' with
    backoffs := c.backoffs
    bootstraps := { c'.bootstraps with registry := c.bootstraps.registry } }

theorem drops_deleted (c : Controller) (plain : '/' ∉ ns.toList) :
    Drops c (c.deleted ns name) ns name where
  backoffs ns' name' plain' := by
    simp [deleted, Backoffs.reset, Csr.objectKey_inj plain' plain]
  sessions ns' name' plain' := by
    have hkey :
        (Csr.IdentityRequest.forNode ns' name').key = (Csr.IdentityRequest.forNode ns name).key ↔
        ns' = ns ∧ name' = name := Csr.objectKey_inj plain' plain
    simp [deleted, forget, Bootstrap.System.release, hkey]
  rest := rfl

namespace History

/-- No namespace of a machine has a slash in it. -/
structure Plain (r : History settings keys bootstraps) : Prop where
  begun : ∀ n ns name delivered, r.event n = .begin ns name delivered → '/' ∉ ns.toList
  deleted : ∀ n ns name, r.event n = .deleted ns name → '/' ∉ ns.toList

/-- How often passes for a machine have failed before a step, since one succeeded or the machine was
reported gone. -/
def errors (r : History settings keys bootstraps) (ns name : String) : Nat → Nat
  | 0 => 0
  | n + 1 =>
    if (r.event n).isDeletion ns name then 0
    else match resultFor? ns name ((r.state n).ended? (r.effects n)) with
      | some (.ok _) => 0
      | some (.error _) => errors r ns name n + 1
      | none => errors r ns name n

theorem Plain.of_mem {r : History settings keys bootstraps} (plain : r.Plain) {f : Flight}
    (hf : f ∈ (r.state n).flights) : '/' ∉ f.ns.toList := by
  obtain ⟨k, -, begun⟩ := r.begun_of_mem n f hf
  exact plain.begun k f.ns f.name f.delivered begun

theorem get_backoffs {r : History settings keys bootstraps} (plain : r.Plain)
    (hns : '/' ∉ ns.toList) (n : Nat) :
    (r.state n).backoffs.get (Csr.objectKey ns name) =
      Backoff.next^[r.errors ns name n] .standard := by
  induction n with
  | zero =>
      rw [r.state_zero]
      rfl
  | succ n ih =>
      have keeps := (r.act n).keeps (r.sound n)
      rw [keeps.get_backoffs (plain.deleted n) (fun f hf => plain.of_mem hf) hns, ih, errors]
      split
      · rfl
      · split <;> simp [Function.iterate_succ_apply']

/-- Each failure of a machine in a row is answered with the next delay of the sequence, whatever
happens to other machines meanwhile. The report that a machine is gone drops what is kept of that
machine, and no other report drops anything. -/
theorem backoff_of_errors (r : History settings keys bootstraps) (plain : r.Plain) :
    (∀ n, ∀ f ∈ (r.state n).flights, f.delivered = true → ∀ failure delay,
      .ended f.id (.error failure) delay ∈ r.effects n →
        delay = some (60 * min (Nat.fib (r.errors f.ns f.name n + 1)) 10 * 1000)) ∧
      (∀ (c : Controller) (ns : Option String) (name : String), '/' ∉ (ns.getD "").toList →
        c.step settings keys (.deleted (ns.getD "") name) =
          some (c.heed (.objectNotFound ns name), []) ∧
          Drops c (c.heed (.objectNotFound ns name)) (ns.getD "") name) ∧
      ∀ (c : Controller) (notice : Notice), (∀ ns name, notice ≠ .objectNotFound ns name) →
        c.heed notice = c := by
  refine ⟨fun n f hf delivered failure delay ended => ?_,
    fun c ns name hns => ⟨rfl, drops_deleted c hns⟩, fun c notice other => ?_⟩
  · obtain ⟨g, base, x, hid, hdelay, ends⟩ := (r.act n).of_ended (r.sound n) ended
    obtain rfl : g = f := (r.sound n).eq_of_id ends.mem hf hid
    obtain ⟨pre, hears, -⟩ := ends.hears
    have hdelay' : delay = some (base.backoffs.delay (Csr.objectKey g.ns g.name) * 1000) := by
      rw [← hdelay, requeue, if_pos delivered]
      rfl
    rw [hdelay', hears.kept.backoffs, Backoffs.delay, get_backoffs plain (plain.of_mem hf),
      Backoff.delay_iterate_standard]
  · cases notice with
    | objectNotFound ns name => exact absurd rfl (other ns name)
    | reconciled | reconcilerFailed | queueError | runnerError => rfl

def failureEvents : List Event :=
  let failing : (q : Query) → q.Answer
    | .kubemarkMachine .. => .error (.submission "")
    | q => (({} : Simulation.World).answer q).1
  let pass (id : Nat) (name : String) : List Event := [.begin "n" name true, .reply id failing]
  [pass 0 "m", pass 1 "m", pass 2 "k", pass 3 "m", pass 4 "m"].flatten

def failures : History {} (fun _ => ⟨"", [], fun _ => []⟩) { now := 0 } :=
  ofEvents failureEvents

theorem failures_plain : failures.Plain := by
  have among (n : Nat) : failures.event n ∈ idle :: failureEvents := event_ofEvents _ n
  constructor
  · intro n ns name delivered h
    have hmem := among n
    simp only [h, idle, failureEvents, List.flatten_cons, List.flatten_nil] at hmem
    obtain rfl : ns = "n" := by
      simp at hmem
      tauto
    decide
  · intro n ns name h
    have hmem := among n
    simp [h, idle, failureEvents] at hmem

theorem failures_course : failures.errors "n" "m" 9 = 3 ∧
    ((failures.state 9).flights.any fun f => f.id = 4 && f.delivered && f.ns = "n" &&
      f.name = "m") = true ∧
    ((failures.effects 9).any fun
      | .ended 4 (.error _) _ => true
      | _ => false) = true := by decide +kernel

theorem failures_delayed : ∃ f ∈ (failures.state 9).flights, f.ns = "n" ∧ f.name = "m" ∧
    ∃ failure, .ended f.id (.error failure) (some 180000) ∈ failures.effects 9 := by
  obtain ⟨often, found, ended⟩ := failures_course
  obtain ⟨f, hf, hnamed⟩ := List.any_eq_true.1 found
  simp only [Bool.and_eq_true, decide_eq_true_eq] at hnamed
  obtain ⟨⟨⟨hid, delivered⟩, hns⟩, hname⟩ := hnamed
  obtain ⟨effect, heffect, ended⟩ := List.any_eq_true.1 ended
  split at ended
  next failure delay =>
    have hended : .ended f.id (.error failure) delay ∈ failures.effects 9 := by
      rw [hid]
      exact heffect
    have hdelay :=
      (backoff_of_errors failures failures_plain).1 9 f hf delivered failure delay hended
    have third : 60 * min (Nat.fib (3 + 1)) 10 * 1000 = 180000 := by decide
    rw [hns, hname, often, third] at hdelay
    rw [hdelay] at hended
    exact ⟨f, hf, hns, hname, failure, hended⟩
  next => cases ended

end History

end Controller

end HollowNode
