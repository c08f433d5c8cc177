import HollowNode.Proofs.Bootstrap.Provenance
import HollowNode.Proofs.Controller.Readiness

namespace HollowNode.Controller

open Pass

variable {settings : Settings} {keys : Nat → Key.Pair} {c c' base : Controller}
  {f : Flight} {e : Event} {fs pre : List Effect} {x : Exchange}

def answerEvent : Program Result → Bootstrap.Event
  | .ask (.bootstrap request) _ => .start request
  | .ask (.release key) _ => .release key
  | _ => .advance 0

def sessionEvent (c : Controller) : Event → Bootstrap.Event
  | .bootstrap event => event
  | .reply flight _ =>
    ((c.flights.find? (·.id = flight)).map fun f => answerEvent f.program).getD (.advance 0)
  | .deleted ns name | .forget ns name => .release (Csr.IdentityRequest.forNode ns name).key
  | .begin .. => .advance 0

theorem bootstraps_conclude (result : Result) :
    (c.conclude settings f result).1.bootstraps = c.bootstraps := by
  unfold conclude
  cases f.delivered with
  | false => rfl
  | true => cases result <;> rfl

theorem Hears.sessions {next : x.query.Answer → Program Result}
    (hears : Hears settings keys c f e x base pre) (asks : f.program = .ask x.query next) :
    ∃ gs, c.bootstraps.step settings.limits keys (c.sessionEvent e) = some (base.bootstraps, gs) ∧
      ∀ g, .bootstrap g ∈ pre → g ∈ gs := by
  cases hears with
  | @told q told found =>
      refine ⟨[], ?_, nofun⟩
      simp only [sessionEvent, found, Option.map_some, Option.getD_some, asks]
      cases q <;> first | rfl | contradiction
  | called request stirs => exact ⟨_, stirs, by simp⟩

/-- A step of a controller is a step of its bootstrap system. -/
theorem Act.sessions {heard : Option (Nat × Exchange)} (act : Act settings keys c e heard c' fs) :
    ∃ gs, c.bootstraps.step settings.limits keys (c.sessionEvent e) = some (c'.bootstraps, gs) ∧
      ∀ g, .bootstrap g ∈ fs → g ∈ gs := by
  cases act with
  | begin | deleted | forget => exact ⟨[], rfl, nofun⟩
  | call told found _ asks =>
      refine ⟨[], ?_, nofun⟩
      simp only [sessionEvent, found, Option.map_some, Option.getD_some, asks]
      rfl
  | spent told found _ done =>
      refine ⟨[], ?_, by simp [effects_conclude]⟩
      simp only [sessionEvent, found, Option.map_some, Option.getD_some, done, bootstraps_conclude]
      rfl
  | goesOn asks hears => exact hears.sessions asks
  | ends asks hears =>
      obtain ⟨gs, hstep, sub⟩ := hears.sessions asks
      rw [bootstraps_conclude]
      exact ⟨gs, hstep, fun g h => sub g (by simpa [effects_conclude] using h)⟩
  | stir stirs => exact ⟨_, stirs, by simp⟩

namespace History

variable {now : Nat}

def sessions (r : History settings keys { now }) : Bootstrap.History settings.limits keys now where
  state n := (r.state n).bootstraps
  event n := (r.state n).sessionEvent (r.event n)
  effects n :=
    (((r.state n).bootstraps.step settings.limits keys
      ((r.state n).sessionEvent (r.event n))).map (·.2)).getD []
  state_zero := by rw [r.state_zero]
  step_eq n := by
    obtain ⟨gs, hstep, -⟩ := (Controller.act (r.step_eq n)).sessions
    rw [hstep]
    rfl

theorem mem_effects_sessions {r : History settings keys { now }} {n : Nat} {g : Bootstrap.Effect}
    (h : .bootstrap g ∈ r.effects n) : g ∈ r.sessions.effects n := by
  obtain ⟨gs, hstep, hsub⟩ := (Controller.act (r.step_eq n)).sessions
  simp only [sessions, hstep, Option.map_some, Option.getD_some]
  exact hsub g h

end History

end HollowNode.Controller
