import HollowNode.Proofs.Controller.Readiness
import HollowNode.Proofs.Pass.Course
import Mathlib.Data.List.Nodup

namespace HollowNode.Controller

open Pass

variable {settings : Settings} {keys : Nat → Key.Pair} {c c' base : Controller}
  {f : Flight} {e : Event} {fs pre : List Effect} {x : Exchange} {result : Result}

theorem mem_setFlight {g : Flight} (h : g ∈ (c.setFlight f).flights) :
    (g ∈ c.flights ∧ g.id ≠ f.id) ∨ g = f := by
  obtain ⟨g', hg', rfl⟩ := List.mem_map.1 h
  by_cases hid : g'.id = f.id
  · exact .inr (if_pos hid)
  · rw [if_neg hid]
    exact .inl ⟨hg', hid⟩

/-- Where a pass comes from that is under way after a step. -/
inductive Comes (settings : Settings) (c : Controller) (e : Event) (heard : Option (Nat × Exchange))
    (c' : Controller) (g : Flight) : Prop
  | begun (event : e = .begin g.ns g.name g.delivered) (unheard : heard = none)
      (id : g.id = c.flightsMade) (program : g.program = provision settings g.ns g.name)
      (idle : g.call = none)
  | left (mem : g ∈ c.flights) (unheard : ∀ x, heard ≠ some (g.id, x))
  | waits {f : Flight} {request : Csr.IdentityRequest} {next : Bootstrap.Answer → Program Result}
      {told : (q : Query) → q.Answer} (mem : f ∈ c.flights) (event : e = .reply f.id told)
      (unheard : heard = none)
      (asks : f.program = .ask (.bootstrap request) next)
      (started : c'.bootstraps = c.bootstraps.start settings.limits request)
      (same : g = { f with call := some c.bootstraps.callsMade })
  | goesOn {f : Flight} {x : Exchange} {next : x.query.Answer → Program Result} {q : Query}
      {rest : q.Answer → Program Result} (mem : f ∈ c.flights)
      (asks : f.program = .ask x.query next)
      (heard : heard = some (f.id, x)) (more : next x.answer = .ask q rest)
      (same : g = { f with program := .ask q rest, call := none })

theorem Act.comes {heard : Option (Nat × Exchange)} {g : Flight}
    (act : Act settings keys c e heard c' fs) (hg : g ∈ c'.flights) :
    Comes settings c e heard c' g := by
  cases act with
  | begin ns name delivered =>
      rcases List.mem_append.1 hg with hg | hg
      · exact .left hg fun _ => nofun
      · obtain rfl := List.mem_singleton.1 hg
        exact .begun rfl rfl rfl rfl rfl
  | deleted | forget | stir => exact .left hg fun _ => nofun
  | call told found idle asks =>
      rcases mem_setFlight hg with ⟨hg, -⟩ | rfl
      · exact .left hg fun _ => nofun
      · exact .waits (List.mem_of_find?_eq_some found) rfl rfl asks rfl rfl
  | spent =>
      rw [flights_conclude] at hg
      exact .left (List.mem_filter.1 hg).1 fun _ => nofun
  | goesOn asks hears more =>
      rcases mem_setFlight hg with ⟨hg, hid⟩ | rfl
      · exact .left (hears.flights ▸ hg) fun x h => hid (congrArg Prod.fst (Option.some.inj h)).symm
      · exact .goesOn hears.mem asks rfl more rfl
  | ends asks hears =>
      rw [flights_conclude, hears.flights] at hg
      obtain ⟨hg, hid⟩ := List.mem_filter.1 hg
      exact .left hg fun x h => of_decide_eq_true hid (congrArg Prod.fst (Option.some.inj h)).symm

theorem ids_setFlight : (c.setFlight f).flights.map (·.id) = c.flights.map (·.id) := by
  rw [setFlight, List.map_map]
  refine List.map_congr_left fun g _ => ?_
  by_cases h : g.id = f.id <;> simp [h]

theorem Act.flightsMade_le {heard : Option (Nat × Exchange)}
    (act : Act settings keys c e heard c' fs) : c.flightsMade ≤ c'.flightsMade := by
  cases act with
  | begin => exact Nat.le_succ _
  | deleted | forget | call | stir => exact Nat.le_refl _
  | spent => exact Nat.le_of_eq flightsMade_conclude.symm
  | goesOn _ hears => exact Nat.le_of_eq hears.flightsMade.symm
  | ends _ hears => exact Nat.le_of_eq (flightsMade_conclude.trans hears.flightsMade).symm

/-- The passes under way have numbers of their own, and each waits for an answer. -/
structure Sound (c : Controller) : Prop where
  numbered : ∀ f ∈ c.flights, f.id < c.flightsMade
  distinct : (c.flights.map (·.id)).Nodup
  asking : ∀ f ∈ c.flights, ∃ q next, f.program = .ask q next

theorem Sound.eq_of_id {g : Flight} (sound : c.Sound) (hf : f ∈ c.flights) (hg : g ∈ c.flights)
    (h : f.id = g.id) :
    f = g := List.inj_on_of_nodup_map sound.distinct hf hg h

theorem find?_flights {p : Flight → Bool} (hf : f ∈ c.flights) (hp : p f = true)
    (unique : ∀ g ∈ c.flights, p g = true → g = f) : c.flights.find? p = some f := by
  cases found : c.flights.find? p with
  | none => exact absurd hp (List.find?_eq_none.1 found f hf)
  | some g => rw [unique g (List.mem_of_find?_eq_some found) (List.find?_some found)]

theorem Sound.find? (sound : c.Sound) (hf : f ∈ c.flights) :
    c.flights.find? (·.id = f.id) = some f :=
  find?_flights hf (decide_eq_true rfl) fun _ hg hid => sound.eq_of_id hg hf (of_decide_eq_true hid)

theorem Sound.unspent (sound : c.Sound) (hf : f ∈ c.flights) (result : Result) :
    f.program ≠ .done result := by
  obtain ⟨q, next, asks⟩ := sound.asking f hf
  rw [asks]
  nofun

theorem Act.sound {heard : Option (Nat × Exchange)} (act : Act settings keys c e heard c' fs)
    (sound : c.Sound) : c'.Sound where
  numbered g hg := by
    have hle := act.flightsMade_le
    cases act.comes hg with
    | begun event _ id =>
        subst event
        rw [id]
        cases act with
        | begin => exact Nat.lt_succ_self _
        | goesOn _ hears | ends _ hears => cases hears
    | left mem => exact Nat.lt_of_lt_of_le (sound.numbered g mem) hle
    | @waits f _ _ _ mem _ _ _ _ same | @goesOn f _ _ _ _ mem _ _ _ same =>
        subst same
        exact Nat.lt_of_lt_of_le (sound.numbered f mem) hle
  distinct := by
    cases act with
    | begin ns name delivered =>
        have hnew : c.flightsMade ∉ c.flights.map (·.id) := by
          intro h
          obtain ⟨f, hf, hid⟩ := List.mem_map.1 h
          exact Nat.ne_of_lt (sound.numbered f hf) hid
        simpa [Controller.begin, List.nodup_append, sound.distinct] using hnew
    | deleted | forget | stir => exact sound.distinct
    | call => rw [ids_setFlight]; exact sound.distinct
    | goesOn _ hears => rw [ids_setFlight, hears.flights]; exact sound.distinct
    | spent => rw [flights_conclude]; exact sound.distinct.sublist (List.filter_sublist.map _)
    | ends _ hears =>
        rw [flights_conclude, hears.flights];
          exact sound.distinct.sublist (List.filter_sublist.map _)
  asking g hg := by
    cases act.comes hg with
    | begun _ _ _ program => exact ⟨_, _, program⟩
    | left mem => exact sound.asking g mem
    | @waits f _ _ _ mem _ _ _ _ same =>
        subst same
        exact sound.asking f mem
    | goesOn _ _ _ _ same =>
        subst same
        exact ⟨_, _, rfl⟩

structure Concludes (settings : Settings) (keys : Nat → Key.Pair) (c : Controller) (e : Event)
    (heard : Option (Nat × Exchange)) (c' : Controller) (fs : List Effect) (f : Flight)
    (result : Result) (base : Controller) (x : Exchange) : Prop where
  mem : f ∈ c.flights
  answered : ∃ next, f.program = .ask x.query next ∧ next x.answer = .done result
  heard : heard = some (f.id, x)
  hears : ∃ pre, Hears settings keys c f e x base pre ∧
    fs = pre ++ [.ended f.id result (base.requeue settings f result)]
  after : c' = (base.conclude settings f result).1

theorem Hears.ends {next : x.query.Answer → Program Result}
    (hears : Hears settings keys c f e x base pre) (asks : f.program = .ask x.query next)
    (done : next x.answer = .done result) :
    Concludes settings keys c e (some (f.id, x)) (base.conclude settings f result).1
      (pre ++ (base.conclude settings f result).2) f result base x :=
  ⟨hears.mem, ⟨next, asks, done⟩, rfl, ⟨pre, hears, by rw [effects_conclude]⟩, rfl⟩

theorem Act.of_ended {heard : Option (Nat × Exchange)} {flight : Nat} {delay : Option Nat}
    (act : Act settings keys c e heard c' fs) (sound : c.Sound)
    (h : .ended flight result delay ∈ fs) :
    ∃ f base x, f.id = flight ∧ base.requeue settings f result = delay ∧
      Concludes settings keys c e heard c' fs f result base x := by
  cases act with
  | begin | deleted | forget | call => cases h
  | spent told found _ done => exact absurd done (sound.unspent (List.mem_of_find?_eq_some found) _)
  | goesOn _ hears => exact absurd h (hears.quiet _ _ _)
  | stir => simp at h
  | ends asks hears done =>
      rw [effects_conclude] at h
      rcases List.mem_append.1 h with h | h
      · exact absurd h (hears.quiet _ _ _)
      · cases List.mem_singleton.1 h
        exact ⟨_, _, _, rfl, rfl, hears.ends asks done⟩

theorem Act.mem_of_heard {flight : Nat} (act : Act settings keys c e (some (flight, x)) c' fs) :
    ∃ f ∈ c.flights, f.id = flight := by
  cases act with
  | goesOn _ hears | ends _ hears => exact ⟨_, hears.mem, rfl⟩

namespace History

variable {bootstraps : Bootstrap.System} {n id : Nat}

def heard? (r : History settings keys bootstraps) (n : Nat) : Option (Nat × Exchange) :=
  (r.state n).heard? (r.effects n) (r.event n)

/-- What a pass asked and was told before a step. -/
def log (r : History settings keys bootstraps) (id : Nat) : Nat → List Exchange
  | 0 => []
  | n + 1 => log r id n ++ ((r.heard? n).filter (·.1 = id)).toList.map (·.2)

theorem act (r : History settings keys bootstraps) (n : Nat) :
    Act settings keys (r.state n) (r.event n) (r.heard? n) (r.state (n + 1)) (r.effects n) :=
  Controller.act (r.step_eq n)

theorem sound (r : History settings keys bootstraps) (n : Nat) : (r.state n).Sound := by
  refine r.invariant ⟨nofun, List.nodup_nil, nofun⟩ (fun c e c' fs hstep hc => ?_) n
  exact (Controller.act hstep).sound hc

theorem log_of_heard (r : History settings keys bootstraps) (h : r.heard? n = some (id, x)) :
    r.log id (n + 1) = r.log id n ++ [x] := by
  simp [log, h]

theorem log_of_unheard (r : History settings keys bootstraps) (h : ∀ x, r.heard? n ≠ some (id, x)) :
    r.log id (n + 1) = r.log id n := by
  have hnone : (r.heard? n).filter (·.1 = id) = none := by
    refine Option.filter_eq_none_iff.2 fun p hp hid => ?_
    obtain rfl : p.1 = id := of_decide_eq_true hid
    exact h p.2 hp
  rw [log, hnone]
  exact List.append_nil _

theorem log_prefix (r : History settings keys bootstraps) (id : Nat) {i j : Nat} (hij : i ≤ j) :
    r.log id i <+: r.log id j := by
  induction hij with
  | refl => exact List.prefix_refl _
  | step _ ih => exact ih.trans (List.prefix_append _ _)

theorem unheard_of_fresh (r : History settings keys bootstraps)
    (fresh : (r.state n).flightsMade ≤ id) (x : Exchange) : r.heard? n ≠ some (id, x) := by
  intro h
  have act := r.act n
  rw [h] at act
  obtain ⟨f, hf, hid⟩ := act.mem_of_heard
  have hlt := (r.sound n).numbered f hf
  omega

theorem log_eq_nil (r : History settings keys bootstraps) (fresh : (r.state n).flightsMade ≤ id) :
    r.log id n = [] := by
  induction n with
  | zero => rfl
  | succ n ih =>
      have earlier : (r.state n).flightsMade ≤ id := Nat.le_trans (r.act n).flightsMade_le fresh
      rw [r.log_of_unheard (r.unheard_of_fresh earlier), ih earlier]

theorem begun_of_mem (r : History settings keys bootstraps) (n : Nat) :
    ∀ f ∈ (r.state n).flights, ∃ k < n, r.event k = .begin f.ns f.name f.delivered := by
  induction n with
  | zero =>
      rw [r.state_zero]
      exact nofun
  | succ n ih =>
      have earlier {f : Flight} (hf : f ∈ (r.state n).flights) :
          ∃ k < n + 1, r.event k = .begin f.ns f.name f.delivered := by
        obtain ⟨k, hk, begun⟩ := ih f hf
        exact ⟨k, Nat.lt_succ_of_lt hk, begun⟩
      intro g hg
      cases (r.act n).comes hg with
      | begun event => exact ⟨n, Nat.lt_succ_self n, event⟩
      | left mem => exact earlier mem
      | @waits f _ _ _ mem _ _ _ _ same | @goesOn f _ _ _ _ mem _ _ _ same =>
          subst same
          exact earlier (f := f) mem

theorem reached (r : History settings keys bootstraps) (n : Nat) :
    ∀ f ∈ (r.state n).flights, (provision settings f.ns f.name).Reaches
      (r.log f.id n) f.program := by
  induction n with
  | zero =>
      rw [r.state_zero]
      exact nofun
  | succ n ih =>
      intro g hg
      cases (r.act n).comes hg with
      | begun _ unheard id program =>
          have fresh := r.unheard_of_fresh (Nat.le_of_eq id.symm)
          rw [r.log_of_unheard fresh, r.log_eq_nil (Nat.le_of_eq id.symm), program]
          exact .start
      | left mem unheard =>
          rw [r.log_of_unheard unheard]
          exact ih g mem
      | @waits f _ _ _ mem _ unheard _ _ same =>
          subst same
          rw [r.log_of_unheard (by simp [unheard])]
          exact ih f mem
      | @goesOn f x next q rest mem asks heard more same =>
          subst same
          have before := ih f mem
          rw [asks] at before
          rw [r.log_of_heard heard, ← more]
          exact before.answer x.answer

theorem reached_end (r : History settings keys bootstraps) {base : Controller}
    (ends : Concludes settings keys (r.state n) (r.event n) (r.heard? n) (r.state (n + 1))
      (r.effects n) f result base x) :
    (provision settings f.ns f.name).Reaches (r.log f.id n ++ [x]) (.done result) ∧
      r.log f.id (n + 1) = r.log f.id n ++ [x] := by
  obtain ⟨next, asks, done⟩ := ends.answered
  have before := r.reached n f ends.mem
  rw [asks] at before
  rw [← done]
  exact ⟨before.answer x.answer, r.log_of_heard ends.heard⟩

end History

end HollowNode.Controller
