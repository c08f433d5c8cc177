import HollowNode.Proofs.Controller.Endings
import HollowNode.Proofs.Controller.Leftovers
import HollowNode.Proofs.Metrics
import Mathlib

namespace HollowNode.Controller

open Pass

variable {settings : Settings} {keys : Nat → Key.Pair} {c c' base : Controller}
  {f : Flight} {e : Event} {fs pre : List Effect} {x : Exchange} {result : Result}
  {heard : Option (Nat × Exchange)}

def Event.isBegin : Event → Bool
  | .begin .. => true
  | _ => false

def Event.isSubmission : Event → Bool
  | .bootstrap (.submitted _ (.ok _)) => true
  | _ => false

theorem Hears.unbegun (hears : Hears settings keys c f e x base pre) : e.isBegin = false := by
  cases hears <;> rfl

theorem Act.ids (act : Act settings keys c e heard c' fs) (sound : c.Sound) :
    List.Perm (((c.ended? fs).map (·.1.id)).toList ++ c'.flights.map (·.id))
      (c.flights.map (·.id) ++ if e.isBegin then [c.flightsMade] else []) := by
  have idle : c.ended? [] = none := rfl
  cases act with
  | begin ns name delivered => simp [idle, Controller.begin, Event.isBegin]
  | deleted | forget =>
      simp [idle, Controller.deleted, Controller.forget, Event.isBegin]
  | call => simp [idle, ids_setFlight, Event.isBegin]
  | spent told found _ done => exact absurd done (sound.unspent (List.mem_of_find?_eq_some found) _)
  | goesOn asks hears =>
      simp [ended?_eq_none hears.quiet, ids_setFlight, hears.flights, hears.unbegun]
  | @ends f _ x next base pre result asks hears done =>
      have rest : (base.conclude settings f result).1.flights.map (·.id) =
          (c.flights.map (·.id)).erase f.id := by
        rw [flights_conclude, hears.flights, sound.distinct.erase_eq_filter, List.filter_map]
        simp [Function.comp_def, bne, beq_eq_decide]
      have mem : f.id ∈ c.flights.map (·.id) := List.mem_map_of_mem hears.mem
      rw [(hears.ends asks done).ended? sound, rest, hears.unbegun]
      simpa using (List.perm_cons_erase mem).symm
  | @stir _ _ effects =>
      have silent : c.ended? (effects.map .bootstrap) = none := ended?_eq_none (by simp)
      simp [silent, Event.isBegin]

theorem Act.unbegun {id : Nat} (act : Act settings keys c e (some (id, x)) c' fs) :
    e.isBegin = false := by
  cases act with
  | goesOn _ hears | ends _ hears => exact hears.unbegun

theorem sum_map_of_mem {L M : Nat → Nat} {ids : List Nat} {a k : Nat} (distinct : ids.Nodup)
    (mem : a ∈ ids) (others : ∀ b, b ≠ a → M b = L b) (own : M a = L a + k) :
    (ids.map M).sum = (ids.map L).sum + k := by
  have rest : (ids.erase a).map M = (ids.erase a).map L :=
    List.map_congr_left fun b hb => others b fun h => distinct.not_mem_erase (h ▸ hb)
  rw [← List.sum_map_erase M mem, ← List.sum_map_erase L mem, own, rest]
  omega

theorem Act.balance (act : Act settings keys c e heard c' fs) (sound : c.Sound) {L M : Nat → Nat}
    {w : Exchange → Nat} (unheard : ∀ id, (∀ x, heard ≠ some (id, x)) → M id = L id)
    (hears : ∀ id x, heard = some (id, x) → M id = L id + w x) :
    ((c.ended? fs).elim 0 fun p => M p.1.id) + ((c'.flights.map (·.id)).map M).sum =
      ((c.flights.map (·.id)).map L).sum + heard.elim 0 (fun p => w p.2) +
        if e.isBegin then L c.flightsMade else 0 := by
  have hperm := ((act.ids sound).map M).sum_eq
  have hended : (((c.ended? fs).map (·.1.id)).toList.map M).sum =
      (c.ended? fs).elim 0 fun p => M p.1.id := by
    cases c.ended? fs <;> simp
  rw [List.map_append, List.sum_append, List.map_append, List.sum_append, hended] at hperm
  rw [hperm]
  cases heard with
  | none =>
      obtain rfl : M = L := funext fun id => unheard id fun x => nofun
      cases e.isBegin <;> simp
  | some p =>
      obtain ⟨id, x⟩ := p
      obtain ⟨f, hf, hid⟩ := act.mem_of_heard
      have others : ∀ b, b ≠ id → M b = L b := fun b hb => unheard b fun y h => hb (by cases h; rfl)
      rw [sum_map_of_mem sound.distinct (hid ▸ List.mem_map_of_mem hf) others (hears id x rfl),
        act.unbegun]
      simp

theorem observed_counted (c : Controller) (event : Bootstrap.Event) (label : String) :
    (c.counted event).observed label = c.metrics.observed label := by
  unfold counted
  split <;> rfl

theorem submissions_counted (c : Controller) (event : Bootstrap.Event) :
    (c.counted event).submissions =
      c.metrics.submissions + if (Event.bootstrap event).isSubmission then 1 else 0 := by
  unfold counted Event.isSubmission
  split <;> simp_all [Metrics.submitted]

theorem metrics_conclude_of (read : Metrics → Nat)
    (unread : ∀ m result, read (Metrics.ended m result) = read m) :
    read (c.conclude settings f result).1.metrics = read c.metrics := by
  rw [metrics_conclude]
  split
  · exact unread _ _
  · rfl

theorem Hears.observed (hears : Hears settings keys c f e x base pre) (label : String) :
    base.metrics.observed label =
      c.metrics.observed label + if x.query.observes label then 1 else 0 := by
  cases hears with
  | @told q =>
      cases q with
      | observe result elapsed =>
          rw [absorb, Metrics.observed_observe]
          by_cases same : label = result <;> simp [Query.observes, same, eq_comm]
      | _ => rfl
  | called => exact observed_counted c _ label

theorem Hears.submissions (hears : Hears settings keys c f e x base pre) :
    base.metrics.submissions = c.metrics.submissions + if e.isSubmission then 1 else 0 := by
  cases hears with
  | @told q => cases q <;> rfl
  | called => exact submissions_counted c _

theorem Act.observed (act : Act settings keys c e heard c' fs) (label : String) :
    c'.metrics.observed label = c.metrics.observed label + heard.elim 0 fun p =>
    if p.2.query.observes label then 1 else 0 := by
  have concluded (c : Controller) (f : Flight) (result : Result) :
      (c.conclude settings f result).1.metrics.observed label = c.metrics.observed label :=
    metrics_conclude_of (Metrics.observed · label) fun m result => by cases result <;> rfl
  cases act with
  | begin | deleted | forget | call => rfl
  | spent => exact concluded ..
  | goesOn asks hears => exact hears.observed label
  | ends asks hears => exact (concluded ..).trans (hears.observed label)
  | stir => exact observed_counted c _ label

theorem Act.submissions (act : Act settings keys c e heard c' fs) : c'.metrics.submissions =
    c.metrics.submissions + if e.isSubmission then 1 else 0 := by
  have concluded (c : Controller) (f : Flight) (result : Result) :
      (c.conclude settings f result).1.metrics.submissions = c.metrics.submissions :=
    metrics_conclude_of (·.submissions) fun m result => by cases result <;> rfl
  cases act with
  | begin | deleted | forget | call => rfl
  | spent => exact concluded ..
  | goesOn asks hears => exact hears.submissions
  | ends asks hears => exact (concluded ..).trans hears.submissions
  | stir => exact submissions_counted c _

theorem sum_passes_ended (m : Metrics) (result : Result) :
    Metrics.sum (m.ended result).passes = Metrics.sum m.passes + 1 := by
  cases result <;> exact Metrics.sum_increment

theorem count_passes_ended (m : Metrics) (result : Result) (label : String) :
    Metrics.count (m.ended result).passes label =
      Metrics.count m.passes label + if result.label = label then 1 else 0 := by
  cases result <;> simp only [Metrics.ended, Metrics.finished, Metrics.failed,
    Metrics.count_increment, Result.label, eq_comm] <;> split <;> rfl

theorem sum_failures_ended (m : Metrics) (result : Result) : Metrics.sum (m.ended result).failures =
    Metrics.sum m.failures + if result.isOk then 0 else 1 := by
  cases result with
  | ok outcome => rfl
  | error f => exact Metrics.sum_increment

theorem label_eq_errorLabel_iff (result : Result) :
    result.label = Metrics.errorLabel ↔ result.isOk = false := by
  cases result with
  | ok outcome =>
      cases outcome <;> simp [Result.label, Outcome.label, Metrics.errorLabel, Except.isOk,
        Except.toBool]
  | error f => simp [Result.label, Except.isOk, Except.toBool]

theorem observed_totals {passes : List (List Exchange × Result)}
    (observed : ∀ p ∈ passes, Observed p.1 p.2) :
    (passes.map fun p => observations "issued" p.1).sum +
      (passes.map fun p => observations "pending" p.1).sum +
        (passes.map fun p => observations "failed" p.1).sum =
          passes.countP (fun p => 0 < calls p.1) ∧
      (passes.map fun p => observations "pending" p.1).sum =
        passes.countP (·.2.label = "bootstrap_pending") ∧
      passes.countP (·.2.label = "provisioned") ≤
        (passes.map fun p => observations "issued" p.1).sum := by
  induction passes with
  | nil => simp
  | cons p passes ih =>
      obtain ⟨first, rest⟩ := List.forall_mem_cons.1 observed
      obtain ⟨answered, pending, issued⟩ := ih rest
      have hcalls : (if 0 < calls p.1 then 1 else 0) = calls p.1 := by
        have once := first.once
        split <;> omega
      have hissued : (if p.2.label = "provisioned" then 1 else 0) ≤ observations "issued" p.1 := by
        split
        next done => exact Nat.le_of_eq (first.issued done).symm
        next => exact Nat.zero_le _
      have hpending := first.pending
      have hanswered := first.answered
      simp only [List.map_cons, List.sum_cons, List.countP_cons, decide_eq_true_eq, hcalls]
      refine ⟨by omega, by omega, by omega⟩

namespace History

variable {bootstraps : Bootstrap.System} {n : Nat}

/-- All passes are those of a watcher, which counts them. -/
def Watching (r : History settings keys bootstraps) : Prop :=
  ∀ n ns name delivered, r.event n = .begin ns name delivered → delivered = true

/-- The passes that have ended before a step, each with what it asked and was told, and its
result. -/
def finished (r : History settings keys bootstraps) : Nat → List (List Exchange × Result)
  | 0 => []
  | n + 1 => finished r n ++
    (((r.state n).ended? (r.effects n)).map fun p => (r.log p.1.id (n + 1), p.2)).toList

def often (r : History settings keys bootstraps) (event : Event → Bool) (n : Nat) : Nat :=
  (List.range n).countP fun k => event (r.event k)

theorem often_succ (r : History settings keys bootstraps) (event : Event → Bool) (n : Nat) :
    r.often event (n + 1) = r.often event n + if event (r.event n) then 1 else 0 := by
  simp [often, List.range_succ, List.countP_append, List.countP_cons]

theorem delivered_of_mem {r : History settings keys bootstraps} (watching : r.Watching)
    (hf : f ∈ (r.state n).flights) : f.delivered = true := by
  obtain ⟨k, -, begun⟩ := r.begun_of_mem n f hf
  exact watching k f.ns f.name f.delivered begun

theorem often_begin (r : History settings keys bootstraps) (n : Nat) :
    r.often Event.isBegin n = (r.finished n).length + (r.state n).flights.length := by
  induction n with
  | zero =>
      rw [r.state_zero]
      rfl
  | succ n ih =>
      have hlength := ((r.act n).ids (r.sound n)).length_eq
      have hbegun : (if (r.event n).isBegin then [(r.state n).flightsMade] else []).length =
          if (r.event n).isBegin then 1 else 0 := by split <;> rfl
      simp only [List.length_append, List.length_map, hbegun] at hlength
      rw [often_succ, ih, finished, List.length_append]
      simp only [Option.length_toList, Option.isSome_map] at hlength ⊢
      omega

theorem submissions_eq (r : History settings keys bootstraps) (n : Nat) :
    (r.state n).metrics.submissions = r.often Event.isSubmission n := by
  induction n with
  | zero =>
      rw [r.state_zero]
      rfl
  | succ n ih => rw [(r.act n).submissions, often_succ, ih]

theorem observed_eq (r : History settings keys bootstraps) (label : String) (n : Nat) :
    (r.state n).metrics.observed label = ((r.finished n).map fun p => observations label p.1).sum +
      (((r.state n).flights.map (·.id)).map fun id => observations label (r.log id n)).sum := by
  induction n with
  | zero =>
      rw [r.state_zero]
      rfl
  | succ n ih =>
      have balance := (r.act n).balance (r.sound n) (L := fun id => observations label (r.log id n))
        (M := fun id => observations label (r.log id (n + 1)))
        (w := fun x => if x.query.observes label then 1 else 0)
        (fun id unheard => by rw [r.log_of_unheard unheard])
        (fun id x heard => by rw [r.log_of_heard heard, observations_append]; simp [observations])
      -- A pass that begins has asked nothing yet, so it brings nothing in.
      have hfresh : observations label (r.log (r.state n).flightsMade n) = 0 := by
        rw [r.log_eq_nil (Nat.le_refl _)]
        rfl
      have hended :
          ((((r.state n).ended? (r.effects n)).map fun p => (r.log p.1.id (n + 1), p.2)).toList.map
            fun p => observations label p.1).sum = ((r.state n).ended? (r.effects n)).elim 0
            fun p => observations label (r.log p.1.id (n + 1)) := by
        cases (r.state n).ended? (r.effects n) <;> simp
      rw [hfresh, ite_self] at balance
      rw [(r.act n).observed, ih, finished, List.map_append, List.sum_append, hended]
      omega

theorem passes_eq {r : History settings keys bootstraps} (watching : r.Watching) (n : Nat) :
    Metrics.sum (r.state n).metrics.passes = (r.finished n).length ∧
      (∀ label, Metrics.count (r.state n).metrics.passes label = (r.finished n).countP
        (·.2.label = label)) ∧
      Metrics.sum (r.state n).metrics.failures = (r.finished n).countP (!·.2.isOk) := by
  induction n with
  | zero =>
      rw [r.state_zero]
      exact ⟨rfl, fun label => rfl, rfl⟩
  | succ n ih =>
      have keeps := (r.act n).keeps (r.sound n)
      rw [finished]
      generalize (r.state n).ended? (r.effects n) = ended at keeps ⊢
      cases keeps with
      | kept undeleted kept => simpa [kept.passes, kept.failures] using ih
      | deleted ns name event after =>
          have same : ((r.state n).deleted ns name).metrics = (r.state n).metrics := rfl
          simpa [after, same] using ih
      | @ended f result base x undeleted kept ends =>
          obtain ⟨passes, labels, failures⟩ := ih
          rw [ends.after, metrics_conclude, if_pos (delivered_of_mem watching ends.mem),
            sum_passes_ended, sum_failures_ended, kept.passes, kept.failures, passes, failures]
          refine ⟨by simp, fun label => ?_, ?_⟩
          · rw [count_passes_ended, kept.passes, labels]
            simp [List.countP_append, List.countP_cons]
          · cases hok : result.isOk <;> simp [List.countP_append, hok]

theorem observed_of_mem (r : History settings keys bootstraps) (n : Nat) :
    ∀ p ∈ r.finished n, Observed p.1 p.2 := by
  induction n with
  | zero => exact nofun
  | succ n ih =>
      intro p hp
      rcases List.mem_append.1 hp with hp | hp
      · exact ih p hp
      have keeps := (r.act n).keeps (r.sound n)
      obtain ⟨q, hended, rfl⟩ := Option.map_eq_some_iff.1 (Option.mem_toList.1 hp)
      rw [hended] at keeps
      cases keeps with
      | ended undeleted kept ends =>
          obtain ⟨reached, hlog⟩ := r.reached_end ends
          rw [hlog]
          exact (reaches_returns reached).observed

/-- When all passes that a watcher began have ended, the counts tell how many there were and how
they ended, how many requests were accepted, and how many passes asked for a certificate and with
what answer. -/
theorem counts_of_passes (r : History settings keys bootstraps) (watching : r.Watching)
    (idle : (r.state n).flights = []) :
    Metrics.sum (r.state n).metrics.passes = r.often Event.isBegin n ∧
      (r.finished n).length = r.often Event.isBegin n ∧
      Metrics.count (r.state n).metrics.passes Metrics.errorLabel =
        Metrics.sum (r.state n).metrics.failures ∧
      Metrics.sum (r.state n).metrics.failures = (r.finished n).countP (!·.2.isOk) ∧
      (r.state n).metrics.submissions = r.often Event.isSubmission n ∧
      (r.state n).metrics.observed "issued" + (r.state n).metrics.observed "pending" +
        (r.state n).metrics.observed "failed" = (r.finished n).countP (fun p => 0 < calls p.1) ∧
      (r.state n).metrics.observed "pending" =
        Metrics.count (r.state n).metrics.passes "bootstrap_pending" ∧
      Metrics.count (r.state n).metrics.passes "provisioned" ≤
        (r.state n).metrics.observed "issued" := by
  obtain ⟨passes, labels, failures⟩ := passes_eq watching n
  have begun := r.often_begin n
  rw [idle, List.length_nil, Nat.add_zero] at begun
  have observed (label : String) : (r.state n).metrics.observed label =
      ((r.finished n).map fun p => observations label p.1).sum := by
    rw [observed_eq, idle]
    simp
  obtain ⟨answered, pending, issued⟩ := observed_totals (r.observed_of_mem n)
  refine ⟨passes.trans begun.symm, begun.symm, ?_, failures, r.submissions_eq n, ?_, ?_, ?_⟩
  · rw [labels, failures]
    exact List.countP_congr fun p _ => by simp [label_eq_errorLabel_iff]
  · rw [observed, observed, observed, answered]
  · rw [observed, labels, pending]
  · rw [observed, labels]
    exact issued

theorem relocation_watching : relocation.Watching := by
  intro n ns name delivered h
  have hmem : relocation.event n ∈ idle :: relocationEvents := event_ofEvents _ n
  rw [h] at hmem
  simp [idle, relocationEvents] at hmem
  tauto

theorem relocation_idle :
    (relocation.state 38).flights.isEmpty = true ∧ relocation.often Event.isBegin 38 = 4 ∧
    relocation.often Event.isSubmission 38 = 1 := by decide +kernel

theorem relocation_counted :
    (relocation.state 38).flights = [] ∧ Metrics.sum (relocation.state 38).metrics.passes = 4 ∧
    (relocation.state 38).metrics.submissions = 1 ∧
    Metrics.count (relocation.state 38).metrics.passes "provisioned" ≤
    (relocation.state 38).metrics.observed "issued" := by
  obtain ⟨empty, begun, submitted⟩ := relocation_idle
  have idle := List.isEmpty_iff.1 empty
  obtain ⟨passes, -, -, -, submissions, -, -, issued⟩ :=
    counts_of_passes relocation relocation_watching idle
  exact ⟨idle, passes.trans begun, submissions.trans submitted, issued⟩

end History

end HollowNode.Controller
