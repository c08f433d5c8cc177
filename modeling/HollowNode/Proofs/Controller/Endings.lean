import HollowNode.Proofs.Controller.Log

namespace HollowNode

def Backoffs.after (b : Backoffs) (key : String) : Pass.Result → Backoffs
  | .ok _ => b.reset key
  | .error _ => b.fail key

namespace Controller

open Pass

variable {settings : Settings} {keys : Nat → Key.Pair} {c c' base : Controller}
  {f : Flight} {e : Event} {fs pre : List Effect} {x : Exchange} {result : Result}
  {heard : Option (Nat × Exchange)}

def ended? (c : Controller) (fs : List Effect) : Option (Flight × Result) :=
  match fs.getLast? with
  | some (.ended id result _) => (c.flights.find? (·.id = id)).map (·, result)
  | _ => none

theorem ended?_eq_none (h : ∀ id result delay, .ended id result delay ∉ fs) :
    c.ended? fs = none := by
  unfold ended?
  split
  next id result delay last => exact absurd (List.mem_of_getLast? last) (h id result delay)
  next => rfl

theorem Concludes.ended? (ends : Concludes settings keys c e heard c' fs f result base x)
    (sound : c.Sound) : c.ended? fs = some (f, result) := by
  obtain ⟨pre, -, rfl⟩ := ends.hears
  simp [Controller.ended?, sound.find? ends.mem]

structure Kept (c c' : Controller) : Prop where
  backoffs : c'.backoffs = c.backoffs
  passes : c'.metrics.passes = c.metrics.passes
  failures : c'.metrics.failures = c.metrics.failures

/-- What a step does to what is kept of passes that ended. -/
inductive Keeps (settings : Settings) (keys : Nat → Key.Pair) (c : Controller) (e : Event)
    (heard : Option (Nat × Exchange)) (c' : Controller) (fs : List Effect) :
    Option (Flight × Result) → Prop
  | kept (undeleted : ∀ ns name, e ≠ .deleted ns name) (kept : Kept c c') :
      Keeps settings keys c e heard c' fs none
  | deleted (ns name : String) (event : e = .deleted ns name) (after : c' = c.deleted ns name) :
      Keeps settings keys c e heard c' fs none
  | ended {f : Flight} {result : Result} {base : Controller} {x : Exchange}
      (undeleted : ∀ ns name, e ≠ .deleted ns name) (kept : Kept c base)
      (ends : Concludes settings keys c e heard c' fs f result base x) :
      Keeps settings keys c e heard c' fs (some (f, result))

theorem kept_counted (c : Controller) (event : Bootstrap.Event) (bootstraps : Bootstrap.System) :
    Kept c { c with bootstraps, metrics := c.counted event } := by
  unfold counted
  split <;> exact ⟨rfl, rfl, rfl⟩

theorem Hears.kept (hears : Hears settings keys c f e x base pre) : Kept c base := by
  cases hears with
  | @told q => cases q <;> exact ⟨rfl, rfl, rfl⟩
  | called => exact kept_counted c _ _

theorem Hears.undeleted (hears : Hears settings keys c f e x base pre) (ns name : String) :
    e ≠ .deleted ns name := by
  cases hears <;> nofun

theorem Act.keeps (act : Act settings keys c e heard c' fs) (sound : c.Sound) :
    Keeps settings keys c e heard c' fs (c.ended? fs) := by
  have unended (h : ∀ id result delay, .ended id result delay ∉ fs)
      (keeps : Keeps settings keys c e heard c' fs none) :
      Keeps settings keys c e heard c' fs (c.ended? fs) := by
    rw [ended?_eq_none h]
    exact keeps
  cases act with
  | begin => exact unended (fun _ _ _ => List.not_mem_nil) (.kept nofun ⟨rfl, rfl, rfl⟩)
  | deleted ns name => exact unended (fun _ _ _ => List.not_mem_nil) (.deleted ns name rfl rfl)
  | forget => exact unended (fun _ _ _ => List.not_mem_nil) (.kept nofun ⟨rfl, rfl, rfl⟩)
  | call => exact unended (fun _ _ _ => List.not_mem_nil) (.kept nofun ⟨rfl, rfl, rfl⟩)
  | spent told found _ done => exact absurd done (sound.unspent (List.mem_of_find?_eq_some found) _)
  | goesOn asks hears =>
      exact unended hears.quiet (.kept hears.undeleted ⟨hears.kept.1, hears.kept.2, hears.kept.3⟩)
  | ends asks hears done =>
      have ends := hears.ends asks done
      rw [ends.ended? sound]
      exact .ended hears.undeleted hears.kept ends
  | stir => exact unended (by simp) (.kept nofun (kept_counted c _ _))

theorem backoffs_conclude : (c.conclude settings f result).1.backoffs =
    if f.delivered then c.backoffs.after (Csr.objectKey f.ns f.name) result else c.backoffs := by
  unfold conclude
  cases f.delivered with
  | false => rfl
  | true => cases result <;> rfl

theorem metrics_conclude : (c.conclude settings f result).1.metrics =
    if f.delivered then c.metrics.ended result else c.metrics := by
  unfold conclude
  cases f.delivered with
  | false => rfl
  | true => cases result <;> rfl

end Controller

end HollowNode
