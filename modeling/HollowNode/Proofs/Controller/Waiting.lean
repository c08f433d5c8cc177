import HollowNode.Proofs.Controller.Log
import HollowNode.Proofs.Controller.Sessions

namespace HollowNode

namespace Bootstrap.System

variable {limits : Limits} {keys : Nat → Key.Pair} {s s' : System} {c d : Call}
  {e : Event} {m : Move} {fs : List Effect}

theorem Step.exists_call (hs : s.Orderly) (step : Step limits keys s e s' fs)
    (unstarted : ∀ request, e ≠ .start request) (hd : d ∈ s'.calls) : ∃ c ∈ s.calls, c.id = d.id ∧
    c.request = d.request ∧ ∀ answer, .answer d.id answer ∉ fs := by
  cases step.comes hs hd with
  | started request event => exact absurd event (unstarted request)
  | left mem _ effects => exact ⟨d, mem, rfl, rfl, fun answer h => effects _ h rfl⟩
  | @moved c m mem moves call _ effects =>
      obtain ⟨hid, -, hrequest⟩ := Move.call?_eq call
      refine ⟨c, mem, hid.symm, hrequest.symm, fun answer h => ?_⟩
      rw [effects] at h
      cases m with
      | leave | fail => cases call
      | submit => cases List.mem_singleton.1 h
      | note => cases h
      | go =>
          cases List.mem_singleton.1 h
          cases moves

theorem Step.keeps_call (hs : s.Orderly) (step : Step limits keys s e s' fs) (hc : c ∈ s.calls)
    (unanswered : ∀ answer, .answer c.id answer ∉ fs) :
    ∃ d ∈ s'.calls, d.id = c.id ∧ d.request = c.request := by
  obtain ⟨d, hd, hid⟩ := step.stays hs hc unanswered
  refine ⟨d, hd, hid, ?_⟩
  cases step.comes hs hd with
  | started request event call =>
      subst call
      exact absurd (hs.numbered c hc) (Nat.not_lt.2 (Nat.le_of_eq hid))
  | left mem => rw [hs.eq_of_id mem hc hid]
  | @moved b m mem _ call =>
      obtain ⟨hb, -, hrequest⟩ := Move.call?_eq call
      rw [hrequest, hs.eq_of_id mem hc (hb.symm.trans hid)]

end Bootstrap.System

namespace Controller

open Pass

variable {settings : Settings} {keys : Nat → Key.Pair} {c c' base : Controller}
  {f g : Flight} {e : Event} {fs pre : List Effect} {x : Exchange} {heard : Option (Nat × Exchange)}

/-- Every pass that waits for a call has one, for what it asked, and every call has one pass that
waits for it. -/
structure Manned (c : Controller) : Prop where
  waits : ∀ f ∈ c.flights, ∀ id, f.call = some id →
    ∃ call ∈ c.bootstraps.calls, call.id = id ∧
      ∃ next, f.program = .ask (.bootstrap call.request) next
  alone : ∀ f ∈ c.flights, ∀ g ∈ c.flights, ∀ id, f.call = some id → g.call = some id → f = g
  manned : ∀ call ∈ c.bootstraps.calls, ∃ f ∈ c.flights, f.call = some call.id

theorem calls_absorb (c : Controller) (q : Query) :
    (c.absorb q).bootstraps.calls = c.bootstraps.calls := by
  cases q <;> rfl

theorem Manned.find? (manned : c.Manned) (hf : f ∈ c.flights) {id : Nat} (hid : f.call = some id) :
    c.flights.find? (·.call = some id) = some f :=
  find?_flights hf (decide_eq_true hid) fun g hg hcall =>
    manned.alone g hg f hf id (of_decide_eq_true hcall) hid

theorem Manned.unanswered (manned : c.Manned) (orderly : c.bootstraps.Orderly)
    {event : Bootstrap.Event} {bootstraps : Bootstrap.System} {effects : List Bootstrap.Effect}
    (stirs : c.bootstraps.step settings.limits keys event = some (bootstraps, effects))
    (unheard : ∀ call answer, .answer call answer ∈ effects →
      ∀ f, c.flights.find? (·.call = some call) = some f → ∀ request next, f.program ≠ .ask
      (.bootstrap request) next) (call : Nat) (answer : Bootstrap.Answer) :
    .answer call answer ∉ effects := by
  intro h
  obtain ⟨d, hd, rfl, -⟩ := (orderly.step stirs).of_answer h
  obtain ⟨f, hf, hcall⟩ := manned.manned d hd
  obtain ⟨b, -, -, next, asks⟩ := manned.waits f hf d.id hcall
  exact unheard d.id answer h f (manned.find? hf hcall) b.request next asks

theorem mem_setFlight_of_ne (hg : g ∈ c.flights) (hne : g.id ≠ f.id) :
    g ∈ (c.setFlight f).flights :=
  List.mem_map.2 ⟨g, hg, if_neg hne⟩

theorem Act.stays (act : Act settings keys c e heard c' fs) (sound : c.Sound)
    (hf : f ∈ c.flights) {id : Nat} (hcall : f.call = some id)
    (unheard : ∀ x, heard ≠ some (f.id, x)) : f ∈ c'.flights := by
  cases act with
  | begin => exact List.mem_append_left _ hf
  | deleted | forget | stir => exact hf
  | @call g request next told found idle =>
      refine mem_setFlight_of_ne hf fun hid => ?_
      rw [sound.eq_of_id hf (List.mem_of_find?_eq_some found) hid, idle] at hcall
      cases hcall
  | spent told found _ done => exact absurd done (sound.unspent (List.mem_of_find?_eq_some found) _)
  | goesOn asks hears =>
      refine mem_setFlight_of_ne (hears.flights ▸ hf) fun (hid : f.id = _) => ?_
      exact unheard _ (by rw [hid])
  | @ends g _ x _ _ _ _ asks hears =>
      rw [flights_conclude, hears.flights]
      refine List.mem_filter.2 ⟨hf, decide_eq_true fun hid => ?_⟩
      exact unheard x (by rw [hid])

theorem Hears.keeps_call (hears : Hears settings keys c g e x base pre) (manned : c.Manned)
    (orderly : c.bootstraps.Orderly) (hf : f ∈ c.flights) {call : Bootstrap.Call}
    (hc : call ∈ c.bootstraps.calls) (hcall : f.call = some call.id) (other : f.id ≠ g.id) :
    ∃ d ∈ base.bootstraps.calls, d.id = call.id ∧ d.request = call.request := by
  cases hears with
  | @told q => exact ⟨call, (calls_absorb c q).symm ▸ hc, rfl, rfl⟩
  | called request stirs found =>
      refine (orderly.step stirs).keeps_call orderly hc fun answer h => other ?_
      cases List.mem_singleton.1 h
      rw [manned.find? hf hcall] at found
      rw [Option.some.inj found]

theorem Act.keeps_call (act : Act settings keys c e heard c' fs) (manned : c.Manned)
    (orderly : c.bootstraps.Orderly) (hf : f ∈ c.flights) {call : Bootstrap.Call}
    (hc : call ∈ c.bootstraps.calls) (hcall : f.call = some call.id)
    (unheard : ∀ x, heard ≠ some (f.id, x)) :
    ∃ d ∈ c'.bootstraps.calls, d.id = call.id ∧ d.request = call.request := by
  cases act with
  | begin | deleted | forget => exact ⟨call, hc, rfl, rfl⟩
  | call => exact ⟨call, Bootstrap.System.mem_start.2 (.inl hc), rfl, rfl⟩
  | spent => rw [bootstraps_conclude]; exact ⟨call, hc, rfl, rfl⟩
  | goesOn asks hears =>
      exact hears.keeps_call manned orderly hf hc hcall fun hid => unheard _ (by rw [hid])
  | ends asks hears =>
      rw [bootstraps_conclude]
      exact hears.keeps_call manned orderly hf hc hcall fun hid => unheard _ (by rw [hid])
  | stir stirs heardOf =>
      exact (orderly.step stirs).keeps_call orderly hc
        (manned.unanswered orderly stirs heardOf call.id)

theorem Hears.manned (hears : Hears settings keys c g e x base pre) (sound : c.Sound)
    (manned : c.Manned) (orderly : c.bootstraps.Orderly)
    (passing : ∀ request, e ≠ .bootstrap (.start request)) {call : Bootstrap.Call}
    (hc : call ∈ base.bootstraps.calls) : ∃ f ∈ c.flights, f.call = some call.id ∧ f.id ≠ g.id := by
  have hg : g ∈ c.flights := hears.mem
  cases hears with
  | @told q told found idle =>
      rw [calls_absorb] at hc
      obtain ⟨f, hf, hcall⟩ := manned.manned call hc
      refine ⟨f, hf, hcall, fun hid => ?_⟩
      rw [sound.eq_of_id hf hg hid, idle] at hcall
      cases hcall
  | @called event bootstraps id answer request stirs found =>
      have unstarted : ∀ request, event ≠ .start request :=
        fun request h => passing request (congrArg _ h)
      obtain ⟨d, hd, hid, -, unanswered⟩ := (orderly.step stirs).exists_call orderly unstarted hc
      obtain ⟨f, hf, hcall⟩ := manned.manned d hd
      refine ⟨f, hf, hid ▸ hcall, fun hfg => unanswered answer ?_⟩
      have hgcall : g.call = some id := by simpa using List.find?_some found
      rw [sound.eq_of_id hf hg hfg, hgcall, hid] at hcall
      rw [Option.some.inj hcall]
      exact .head _

theorem mem_setFlight_self (hg : g ∈ c.flights) (hid : g.id = f.id) : f ∈ (c.setFlight f).flights :=
  List.mem_map.2 ⟨g, hg, if_pos hid⟩

theorem Act.exists_waiting (act : Act settings keys c e heard c' fs) (sound : c.Sound)
    (manned : c.Manned) (orderly : c.bootstraps.Orderly)
    (passing : ∀ request, e ≠ .bootstrap (.start request)) {d : Bootstrap.Call}
    (hd : d ∈ c'.bootstraps.calls) : ∃ f ∈ c'.flights, f.call = some d.id := by
  have old (hd : d ∈ c.bootstraps.calls) (unheard : heard = none) :
      ∃ f ∈ c'.flights, f.call = some d.id := by
    obtain ⟨f, hf, hcall⟩ := manned.manned d hd
    exact ⟨f, act.stays sound hf hcall (by simp [unheard]), hcall⟩
  have stays {f g : Flight} {x : Exchange} (hf : f ∈ c.flights) (hcall : f.call = some d.id)
      (hid : f.id ≠ g.id) (hheard : heard = some (g.id, x)) : ∃ f ∈ c'.flights, f.call =
      some d.id := by
    refine ⟨f, act.stays sound hf hcall fun y hy => hid ?_, hcall⟩
    rw [hheard] at hy
    exact congrArg Prod.fst (Option.some.inj hy).symm
  cases act with
  | begin | deleted | forget => exact old hd rfl
  | @call f request next told found =>
      rcases Bootstrap.System.mem_start.1 hd with hd | rfl
      · exact old hd rfl
      · exact ⟨_, mem_setFlight_self (List.mem_of_find?_eq_some found) rfl, rfl⟩
  | spent =>
      rw [bootstraps_conclude] at hd
      exact old hd rfl
  | goesOn asks hears =>
      obtain ⟨f, hf, hcall, hid⟩ := hears.manned sound manned orderly passing hd
      exact stays hf hcall hid rfl
  | ends asks hears =>
      rw [bootstraps_conclude] at hd
      obtain ⟨f, hf, hcall, hid⟩ := hears.manned sound manned orderly passing hd
      exact stays hf hcall hid rfl
  | stir stirs =>
      obtain ⟨b, hb, hid, -⟩ :=
        (orderly.step stirs).exists_call orderly
        (fun request h => passing request (congrArg _ h)) hd
      obtain ⟨f, hf, hcall⟩ := manned.manned b hb
      exact ⟨f, hf, hid ▸ hcall⟩

theorem Act.manned (act : Act settings keys c e heard c' fs) (sound : c.Sound) (manned : c.Manned)
    (orderly : c.bootstraps.Orderly) (passing : ∀ request, e ≠ .bootstrap (.start request)) :
    c'.Manned where
  waits g hg id hid := by
    cases act.comes hg with
    | begun _ _ _ _ idle => cases idle.symm.trans hid
    | left mem unheard =>
        obtain ⟨call, hc, rfl, next, asks⟩ := manned.waits g mem id hid
        obtain ⟨d, hd, hdc, hrequest⟩ := act.keeps_call manned orderly mem hc hid unheard
        exact ⟨d, hd, hdc, next, hrequest ▸ asks⟩
    | @waits f request next told mem event unheard asks started same =>
        subst same
        obtain rfl := Option.some.inj hid
        rw [started]
        exact ⟨_, Bootstrap.System.mem_start.2 (.inr rfl), rfl, next, asks⟩
    | goesOn _ _ _ _ same =>
        subst same
        cases hid
  alone g hg k hk id hid hid' := by
    -- A call that starts has a new number, for which no pass can wait yet.
    have taken {f : Flight} (hf : f ∈ c.flights) (hfid : f.call = some c.bootstraps.callsMade) :
        False := by
      obtain ⟨call, hc, heq, -⟩ := manned.waits f hf _ hfid
      exact absurd (orderly.numbered call hc) (Nat.not_lt.2 (Nat.le_of_eq heq.symm))
    cases act.comes hg with
    | begun _ _ _ _ idle => cases idle.symm.trans hid
    | goesOn _ _ _ _ same =>
        subst same
        cases hid
    | left mem =>
        cases act.comes hk with
        | begun _ _ _ _ idle => cases idle.symm.trans hid'
        | goesOn _ _ _ _ same =>
            subst same
            cases hid'
        | left mem' => exact manned.alone g mem k mem' id hid hid'
        | waits _ _ _ _ _ same =>
            subst same
            cases hid'
            exact (taken mem hid).elim
    | @waits f request next told mem event unheard asks started same =>
        cases act.comes hk with
        | begun _ _ _ _ idle => cases idle.symm.trans hid'
        | goesOn _ _ _ _ same' =>
            subst same'
            cases hid'
        | left mem' =>
            subst same
            cases hid
            exact (taken mem' hid').elim
        | waits mem' event' _ _ _ same' =>
            rw [event] at event'
            injection event' with hids
            rw [same, same', sound.eq_of_id mem mem' hids]
  manned d hd := act.exists_waiting sound manned orderly passing hd

namespace History

variable {now n : Nat}

/-- Certificates are asked for by passes only. -/
def Passing (r : History settings keys { now }) : Prop :=
  ∀ n request, r.event n ≠ .bootstrap (.start request)

theorem manned {r : History settings keys { now }} (passing : r.Passing) (n : Nat) :
    (r.state n).Manned := by
  induction n with
  | zero =>
      rw [r.state_zero]
      exact ⟨nofun, nofun, nofun⟩
  | succ n ih => exact (r.act n).manned (r.sound n) ih (r.sessions.orderly n) (passing n)

end History

end Controller

end HollowNode
