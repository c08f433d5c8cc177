import HollowNode.Controller
import HollowNode.Proofs.Bootstrap.Move
import HollowNode.Proofs.Pass.Exchange

namespace HollowNode.Controller

open Pass

variable {settings : Settings} {keys : Nat → Key.Pair} {c c' base : Controller}
  {f : Flight} {e : Event} {fs pre : List Effect} {x : Exchange} {told : (q : Query) → q.Answer}
  {result : Result}

theorem flights_conclude (result : Result) :
    (c.conclude settings f result).1.flights = c.flights.filter (·.id ≠ f.id) := by
  unfold conclude
  cases f.delivered with
  | false => rfl
  | true => cases result <;> rfl

def requeue (settings : Settings) (c : Controller) (f : Flight) (result : Result) : Option Nat :=
  if f.delivered then (c.account settings (Csr.objectKey f.ns f.name) result).2 else none

theorem effects_conclude :
    (c.conclude settings f result).2 = [.ended f.id result (c.requeue settings f result)] := by
  unfold conclude requeue
  cases f.delivered with
  | false => rfl
  | true => cases result <;> rfl

/-- The answers that a pass gets: its controller has some of its own, and hands on those of the
clusters. -/
def answerTo (c : Controller) (told : (q : Query) → q.Answer) : (q : Query) → q.Answer
  | .clock => c.bootstraps.now
  | .observe .. => ()
  | .release _ => ()
  | q => told q

def absorb (c : Controller) : Query → Controller
  | .observe result elapsed => { c with metrics := c.metrics.observe result (elapsed * 1000) }
  | .release key => { c with bootstraps := c.bootstraps.release key }
  | _ => c

def counted (c : Controller) : Bootstrap.Event → Metrics
  | .submitted _ (.ok _) => c.metrics.submitted
  | _ => c.metrics

/-- A pass gets an answer, which leaves the controller in some state before the pass goes on. -/
inductive Hears (settings : Settings) (keys : Nat → Key.Pair) (c : Controller) (f : Flight) :
    Event → Exchange → Controller → List Effect → Prop
  | told {q : Query} (told : (q : Query) → q.Answer)
      (found : c.flights.find? (·.id = f.id) = some f) (idle : f.call = none)
      (plain : q.isBootstrap = false) :
      Hears settings keys c f (.reply f.id told) ⟨q, c.answerTo told q⟩ (c.absorb q) []
  | called {event : Bootstrap.Event} {bootstraps : Bootstrap.System} {call : Nat}
      {answer : Bootstrap.Answer} (request : Csr.IdentityRequest)
      (stirs : c.bootstraps.step settings.limits keys event =
        some (bootstraps, [.answer call answer]))
      (found : c.flights.find? (·.call = some call) = some f) :
      Hears settings keys c f (.bootstrap event) ⟨.bootstrap request, answer⟩
        { c with bootstraps, metrics := c.counted event } [.bootstrap (.answer call answer)]

/-- What a step does, with the exchange of a pass that it completes. -/
inductive Act (settings : Settings) (keys : Nat → Key.Pair) (c : Controller) :
    Event → Option (Nat × Exchange) → Controller → List Effect → Prop
  | begin (ns name : String) (delivered : Bool) :
      Act settings keys c (.begin ns name delivered) none (c.begin settings ns name delivered) []
  | deleted (ns name : String) : Act settings keys c (.deleted ns name) none (c.deleted ns name) []
  | forget (ns name : String) : Act settings keys c (.forget ns name) none (c.forget ns name) []
  | call {f : Flight} {request : Csr.IdentityRequest} {next : Bootstrap.Answer → Program Result}
      (told : (q : Query) → q.Answer) (found : c.flights.find? (·.id = f.id) = some f)
      (idle : f.call = none)
      (asks : f.program = .ask (.bootstrap request) next) :
      Act settings keys c (.reply f.id told) none
        ({ c with bootstraps := c.bootstraps.start settings.limits request }.setFlight
          { f with call := some c.bootstraps.callsMade }) []
  | spent {f : Flight} {result : Result} (told : (q : Query) → q.Answer)
      (found : c.flights.find? (·.id = f.id) = some f) (idle : f.call = none)
      (done : f.program = .done result) :
      Act settings keys c (.reply f.id told) none (c.conclude settings f result).1
        (c.conclude settings f result).2
  | goesOn {f : Flight} {e : Event} {x : Exchange} {next : x.query.Answer → Program Result}
      {base : Controller} {pre : List Effect} {q : Query} {rest : q.Answer → Program Result}
      (asks : f.program = .ask x.query next) (hears : Hears settings keys c f e x base pre)
      (more : next x.answer = .ask q rest) :
      Act settings keys c e (some (f.id, x))
        (base.setFlight { f with program := .ask q rest, call := none }) pre
  | ends {f : Flight} {e : Event} {x : Exchange} {next : x.query.Answer → Program Result}
      {base : Controller} {pre : List Effect} {result : Result}
      (asks : f.program = .ask x.query next) (hears : Hears settings keys c f e x base pre)
      (done : next x.answer = .done result) :
      Act settings keys c e (some (f.id, x)) (base.conclude settings f result).1
        (pre ++ (base.conclude settings f result).2)
  | stir {event : Bootstrap.Event} {bootstraps : Bootstrap.System} {effects : List Bootstrap.Effect}
      (stirs : c.bootstraps.step settings.limits keys event = some (bootstraps, effects))
      (unheard : ∀ call answer, .answer call answer ∈ effects →
        ∀ f, c.flights.find? (·.call = some call) = some f →
        ∀ request next, f.program ≠ .ask (.bootstrap request) next) :
      Act settings keys c (.bootstrap event) none { c with bootstraps, metrics := c.counted event }
        (effects.map .bootstrap)

def exchange? (answer : (q : Query) → q.Answer) : Program Result → Option Exchange
  | .ask q _ => if q.isBootstrap then none else some ⟨q, answer q⟩
  | .done _ => none

def callExchange? (answer : Bootstrap.Answer) : Program Result → Option Exchange
  | .ask (.bootstrap request) _ => some ⟨.bootstrap request, answer⟩
  | _ => none

/-- The exchange that a step completes, and the number of the pass whose it is. -/
def heard? (c : Controller) (fs : List Effect) : Event → Option (Nat × Exchange)
  | .reply flight told =>
    (c.flights.find? (·.id = flight)).bind fun f =>
      (exchange? (c.answerTo told) f.program).map (f.id, ·)
  | .bootstrap _ =>
    match fs with
    | .bootstrap (.answer call answer) :: _ =>
      (c.flights.find? (·.call = some call)).bind fun f =>
        (callExchange? answer f.program).map (f.id, ·)
    | _ => none
  | _ => none

def Quiet (fs : List Effect) : Prop := ∀ flight result requeue, .ended flight result requeue ∉ fs

theorem Act.of_hears {next : x.query.Answer → Program Result} (asks : f.program = .ask x.query next)
    (hears : Hears settings keys c f e x base pre) :
    Act settings keys c e (some (f.id, x)) (base.proceed settings f (next x.answer)).1
      (pre ++ (base.proceed settings f (next x.answer)).2) := by
  cases more : next x.answer with
  | done result => exact .ends asks hears more
  | ask q rest =>
      have act := Act.goesOn asks hears more
      rw [← List.append_nil pre] at act
      exact act

theorem reply_ask {q : Query} {next : q.Answer → Program Result} (plain : q.isBootstrap = false) :
    c.reply settings f told (.ask q next) = (c.absorb q).proceed settings f
      (next (c.answerTo told q)) := by
  cases q with
  | bootstrap => cases plain
  | _ => rfl

theorem of_step_reply {flight : Nat} {answer : (q : Query) → q.Answer}
    (hstep : c.step settings keys (.reply flight answer) = some (c', fs)) :
    ∃ f, c.flights.find? (·.id = flight) = some f ∧ f.call = none ∧
      (c.reply settings f answer f.program).1 = c' ∧
      (c.reply settings f answer f.program).2 = fs := by
  obtain ⟨f, hfind, hreply⟩ := Option.bind_eq_some_iff.1 hstep
  cases hcall : f.call with
  | some call => simp [hcall] at hreply
  | none =>
      rw [hcall] at hreply
      have heq : c.reply settings f answer f.program = (c', fs) := Option.some.inj hreply
      exact ⟨f, hfind, hcall, congrArg Prod.fst heq, congrArg Prod.snd heq⟩

theorem act_reply {flight : Nat}
    (hstep : c.step settings keys (.reply flight told) = some (c', fs)) :
    Act settings keys c (.reply flight told) (c.heard? fs (.reply flight told)) c' fs := by
  obtain ⟨f, found, idle, rfl, rfl⟩ := of_step_reply hstep
  obtain rfl : f.id = flight := by simpa using List.find?_some found
  simp only [heard?, found, Option.bind_some]
  cases hp : f.program with
  | done result => exact .spent told found idle hp
  | ask q next =>
      cases plain : q.isBootstrap with
      | false =>
          simp only [exchange?, plain, Bool.false_eq_true, if_false, Option.map_some,
            reply_ask plain]
          exact Act.of_hears (x := ⟨q, c.answerTo told q⟩) hp (.told told found idle plain)
      | true =>
          cases q with
          | bootstrap request => exact .call told found idle hp
          | _ => cases plain

theorem hear_answer (c : Controller) (call : Nat) (answer : Bootstrap.Answer) :
    c.hear settings [.answer call answer] = ((c.resume settings call answer).1,
      .bootstrap (.answer call answer) :: (c.resume settings call answer).2) := by
  simp [hear]

theorem resume_of_not_asks {call : Nat} {answer : Bootstrap.Answer}
    (unheard : ∀ f, c.flights.find? (·.call = some call) = some f →
      ∀ request next, f.program ≠ .ask (.bootstrap request) next) :
        c.resume settings call answer = (c, []) := by
  unfold resume
  split
  · rfl
  next f found =>
    split
    next request next hp => exact absurd hp (unheard f found request next)
    next => rfl

theorem act_answer {event : Bootstrap.Event} {bootstraps : Bootstrap.System} {call : Nat}
    {answer : Bootstrap.Answer}
    (stirs : c.bootstraps.step settings.limits keys event =
      some (bootstraps, [.answer call answer])) (hbase :
      base = { c with bootstraps, metrics := c.counted event }) :
    Act settings keys c (.bootstrap event)
      (c.heard? (.bootstrap (.answer call answer) :: (base.resume settings call answer).2)
        (.bootstrap event))
      (base.resume settings call answer).1
      (.bootstrap (.answer call answer) :: (base.resume settings call answer).2) := by
  by_cases hasks : ∃ f request next, c.flights.find? (·.call = some call) = some f ∧
      f.program = .ask (.bootstrap request) next
  · obtain ⟨f, request, next, found, hp⟩ := hasks
    have hresume : base.resume settings call answer = base.proceed settings f (next answer) := by
      simp [resume, hbase, found, hp]
    rw [hresume, hbase]
    simp only [heard?, found, hp, callExchange?, Option.bind_some, Option.map_some]
    exact Act.of_hears (x := ⟨.bootstrap request, answer⟩) hp (.called request stirs found)
  · have unheard : ∀ f, c.flights.find? (·.call = some call) = some f →
        ∀ request next, f.program ≠ .ask (.bootstrap request) next :=
      fun f found request next hp => hasks ⟨f, request, next, found, hp⟩
    have hnone : c.heard? (.bootstrap (.answer call answer) :: (base.resume settings call answer).2)
        (.bootstrap event) = none := by
      refine Option.bind_eq_none_iff.2 fun f found => ?_
      unfold callExchange?
      split
      next request next hp => exact absurd hp (unheard f found request next)
      next => rfl
    rw [hnone, resume_of_not_asks (c := base) (by rw [hbase]; exact unheard), hbase]
    exact .stir stirs fun call' answer' h => by cases List.mem_singleton.1 h; exact unheard

theorem act_bootstrap {event : Bootstrap.Event}
    (hstep : c.step settings keys (.bootstrap event) = some (c', fs)) :
    Act settings keys c (.bootstrap event) (c.heard? fs (.bootstrap event)) c' fs := by
  obtain ⟨⟨bootstraps, effects⟩, stirs, hheard⟩ := Option.bind_eq_some_iff.1 hstep
  have hone : effects.length ≤ 1 := Bootstrap.System.effects_step stirs
  match effects, hone with
  | [], _ =>
      cases hheard
      exact .stir stirs nofun
  | [effect], _ =>
      cases effect with
      | submit | poll | sleep =>
          cases hheard
          exact .stir stirs (by simp)
      | answer call answer =>
          let base : Controller := { c with bootstraps, metrics := c.counted event }
          have hhear : base.hear settings [.answer call answer] = (c', fs) := Option.some.inj hheard
          rw [hear_answer] at hhear
          obtain ⟨rfl, rfl⟩ := Prod.mk.inj hhear
          exact act_answer stirs rfl

theorem act (hstep : c.step settings keys e = some (c', fs)) :
    Act settings keys c e (c.heard? fs e) c' fs := by
  cases e with
  | begin ns name delivered =>
      cases hstep
      exact .begin ns name delivered
  | deleted ns name =>
      cases hstep
      exact .deleted ns name
  | forget ns name =>
      cases hstep
      exact .forget ns name
  | reply flight told => exact act_reply hstep
  | bootstrap event => exact act_bootstrap hstep

theorem Hears.mem (hears : Hears settings keys c f e x base pre) : f ∈ c.flights := by
  cases hears with
  | told _ found | called _ _ found => exact List.mem_of_find?_eq_some found

theorem Hears.flights (hears : Hears settings keys c f e x base pre) :
    base.flights = c.flights := by
  cases hears with
  | @told q => cases q <;> rfl
  | called => rfl

theorem Hears.flightsMade (hears : Hears settings keys c f e x base pre) :
    base.flightsMade = c.flightsMade := by
  cases hears with
  | @told q => cases q <;> rfl
  | called => rfl

theorem flightsMade_conclude : (c.conclude settings f result).1.flightsMade = c.flightsMade := by
  unfold conclude
  cases f.delivered with
  | false => rfl
  | true => cases result <;> rfl

theorem Hears.quiet (hears : Hears settings keys c f e x base pre) : Quiet pre := by
  cases hears with
  | told => exact fun _ _ _ => List.not_mem_nil
  | called => simp [Quiet]

end HollowNode.Controller
