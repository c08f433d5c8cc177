import HollowNode.Proofs.Controller.Act
import HollowNode.Proofs.Run
import HollowNode.Simulation.World

namespace HollowNode

open Pass
open Simulation (isForeign)

variable {settings : Settings} {keys : Nat → Key.Pair} {c c' : Controller} {f : Flight} {q : Query}
  {p : Program Result} {P P' : Nat → Exchange → Prop}

namespace Controller

variable {keys : Nat → Key.Pair} {e : Event} {fs : List Effect} {flights : List Flight}

/-- A pass asks something and waits for the answer. -/
def Asks (c : Controller) (flight : Nat) (q : Query) : Prop :=
  ∃ f next, c.flights.find? (·.id = flight) = some f ∧ f.call = none ∧ f.program = .ask q next

/-- A pass gets an answer in a step: one from a cluster, one to the call that it waits for, or one
that its controller has at once. -/
inductive Tells (c : Controller) (e : Event) (fs : List Effect) (f : Flight) : Exchange → Prop
  | cluster {q : Query} {answer : (q : Query) → q.Answer} (foreign : isForeign q = true)
      (event : e = .reply f.id answer) (asks : c.Asks f.id q) : Tells c e fs f ⟨q, answer q⟩
  | certificate {call : Nat} {request : Csr.IdentityRequest} {answer : Bootstrap.Answer}
      (waits : f.call = some call) (answered : .bootstrap (.answer call answer) ∈ fs) :
      Tells c e fs f ⟨.bootstrap request, answer⟩
  | time : Tells c e fs f ⟨.clock, c.bootstraps.now⟩
  | observed (result : String) (elapsed : Nat) : Tells c e fs f ⟨.observe result elapsed, ()⟩
  | released (key : String) : Tells c e fs f ⟨.release key, ()⟩

def EndsOnly (fs : List Effect) (f : Flight) (last : Result) : Prop :=
  ∀ flight result requeue, .ended flight result requeue ∈ fs → flight = f.id ∧ result = last

/-- What becomes of the passes in a step. -/
inductive Turn (settings : Settings) (c : Controller) (e : Event) (fs : List Effect) :
    List Flight → Prop
  | rest (quiet : Quiet fs) : Turn settings c e fs c.flights
  | begin (f : Flight) (program : f.program = provision settings f.ns f.name) (quiet : Quiet fs) :
      Turn settings c e fs (c.flights ++ [f])
  | wait {f : Flight} (mem : f ∈ c.flights) (call : Nat) (quiet : Quiet fs) :
      Turn settings c e fs (c.setFlight { f with call := some call }).flights
  | goesOn {f : Flight} {q : Query} {next : q.Answer → Program Result} {a : q.Answer}
      (mem : f ∈ c.flights) (asked : f.program = .ask q next) (told : c.Tells e fs f ⟨q, a⟩)
      (quiet : Quiet fs) :
      Turn settings c e fs (c.setFlight { f with program := next a, call := none }).flights
  | ends {f : Flight} {q : Query} {next : q.Answer → Program Result} {a : q.Answer} {last : Result}
      (mem : f ∈ c.flights) (asked : f.program = .ask q next) (told : c.Tells e fs f ⟨q, a⟩)
      (done : next a = .done last) (only : EndsOnly fs f last) : Turn settings c e fs
        (c.flights.filter (·.id ≠ f.id))
  | spent {f : Flight} {last : Result} (mem : f ∈ c.flights) (done : f.program = .done last)
      (only : EndsOnly fs f last) : Turn settings c e fs (c.flights.filter (·.id ≠ f.id))

theorem endsOnly_conclude (last : Result) : EndsOnly (c.conclude settings f last).2 f last := by
  intro flight result requeue h
  rw [effects_conclude] at h
  cases List.mem_singleton.1 h
  exact ⟨rfl, rfl⟩

theorem Hears.tells {base : Controller} {pre : List Effect} {x : Exchange}
    {next : x.query.Answer → Program Result} (hears : Hears settings keys c f e x base pre)
    (asks : f.program = .ask x.query next) (sub : pre ⊆ fs) : c.Tells e fs f x := by
  cases hears with
  | @told q told found idle plain =>
      have waits : c.Asks f.id q := ⟨f, next, found, idle, asks⟩
      cases q with
      | clock => exact .time
      | observe result elapsed => exact .observed result elapsed
      | release key => exact .released key
      | bootstrap => cases plain
      | _ => exact @Tells.cluster _ _ _ _ _ told rfl rfl waits
  | called request stirs found =>
      exact .certificate (by simpa using List.find?_some found) (sub (.head _))

theorem Act.turn {heard : Option (Nat × Exchange)} (act : Act settings keys c e heard c' fs) :
    Turn settings c e fs c'.flights := by
  cases act with
  | begin => exact .begin _ rfl nofun
  | deleted | forget => exact .rest nofun
  | call told found => exact .wait (List.mem_of_find?_eq_some found) _ nofun
  | spent told found _ done =>
      rw [flights_conclude]
      exact .spent (List.mem_of_find?_eq_some found) done (endsOnly_conclude _)
  | @goesOn f _ x next base _ q rest asks hears more =>
      have hflights : (base.setFlight { f with program := .ask q rest, call := none }).flights =
          (c.setFlight { f with program := next x.answer, call := none }).flights := by
        rw [setFlight, setFlight, hears.flights, more]
      rw [hflights]
      exact .goesOn hears.mem asks (hears.tells asks (List.Subset.refl _)) hears.quiet
  | ends asks hears done =>
      rw [flights_conclude, hears.flights]
      refine .ends hears.mem asks (hears.tells asks (List.subset_append_left ..)) done
        fun flight result requeue h => ?_
      rcases List.mem_append.1 h with h | h
      · exact absurd h (hears.quiet _ _ _)
      · exact endsOnly_conclude _ flight result requeue h
  | stir => exact .rest (by simp [Quiet])

theorem turn (hstep : c.step settings keys e = some (c', fs)) : Turn settings c e fs c'.flights :=
  (act hstep).turn

end Controller

/-- A pass came to where it is by exchanges that are known to have happened to it. -/
def Flight.Traced (settings : Settings) (P : Nat → Exchange → Prop) (f : Flight) : Prop :=
  ∃ h, (provision settings f.ns f.name).Reaches h f.program ∧ ∀ x ∈ h, P f.id x

namespace Flight.Traced

theorem imp (t : f.Traced settings P) (known : ∀ x, P f.id x → P' f.id x) :
    f.Traced settings P' := by
  obtain ⟨h, reached, happened⟩ := t
  exact ⟨h, reached, fun x hx => known x (happened x hx)⟩

theorem answer {next : q.Answer → Program Result} {a : q.Answer} (t : f.Traced settings P)
    (hf : f.program = .ask q next) (known : P f.id ⟨q, a⟩) :
    Traced settings P { f with program := next a, call := none } := by
  obtain ⟨h, reached, happened⟩ := t
  rw [hf] at reached
  refine ⟨h ++ [⟨q, a⟩], reached.answer a, fun x hx => ?_⟩
  rcases List.mem_append.1 hx with hx | hx
  · exact happened x hx
  · obtain rfl := List.mem_singleton.1 hx
    exact known

end Flight.Traced

namespace Controller

variable {e : Event} {fs : List Effect} {flights : List Flight}

theorem traced_setFlight (t : ∀ g ∈ c.flights, g.Traced settings P) (tf : f.Traced settings P) :
    ∀ g ∈ (c.setFlight f).flights, g.Traced settings P := by
  intro g hg
  obtain ⟨g', hg', rfl⟩ := List.mem_map.1 hg
  by_cases h : g'.id = f.id
  · rw [if_pos h]
    exact tf
  · rw [if_neg h]
    exact t g' hg'

theorem Turn.traced (turn : Turn settings c e fs flights) (t : ∀ f ∈ c.flights, f.Traced settings P)
    (known : ∀ f ∈ c.flights, ∀ x next, f.program = .ask x.query next →
      c.Tells e fs f x → P f.id x) :
    ∀ f ∈ flights, f.Traced settings P := by
  cases turn with
  | rest => exact t
  | begin f program =>
      intro g hg
      rcases List.mem_append.1 hg with hg | hg
      · exact t g hg
      · obtain rfl := List.mem_singleton.1 hg
        exact ⟨[], program ▸ .start, by simp⟩
  | wait mem call =>
      obtain ⟨h, reached, happened⟩ := t _ mem
      exact traced_setFlight t ⟨h, reached, happened⟩
  | goesOn mem asked told =>
      exact traced_setFlight t ((t _ mem).answer asked (known _ mem _ _ asked told))
  | ends | spent => exact fun g hg => t g (List.mem_filter.1 hg).1

theorem Turn.ended (turn : Turn settings c e fs flights) (t : ∀ f ∈ c.flights, f.Traced settings P)
    (known : ∀ f ∈ c.flights, ∀ x next, f.program = .ask x.query next → c.Tells e fs f x → P f.id x)
    {flight : Nat} {result : Result} {requeue : Option Nat}
    (h : .ended flight result requeue ∈ fs) :
    ∃ f ∈ c.flights, f.id = flight ∧
      Flight.Traced settings P { f with program := .done result, call := none } := by
  cases turn with
  | rest quiet | begin _ _ quiet | wait _ _ quiet | goesOn _ _ _ quiet =>
      exact absurd h (quiet flight result requeue)
  | @ends f q next a last mem asked told done only =>
      obtain ⟨rfl, rfl⟩ := only flight result requeue h
      refine ⟨f, mem, rfl, ?_⟩
      rw [← done]
      exact (t f mem).answer asked (known f mem _ _ asked told)
  | @spent f last mem done only =>
      obtain ⟨rfl, rfl⟩ := only flight result requeue h
      obtain ⟨h, reached, happened⟩ := t f mem
      exact ⟨f, mem, rfl, h, done ▸ reached, happened⟩

end Controller

end HollowNode
