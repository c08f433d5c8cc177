import HollowNode.Proofs.Controller.Flights
import HollowNode.Proofs.Pass.Provision

namespace HollowNode.Controller

open Api Pass
open Simulation (isForeign)

/-- The runs of a controller from a time at which no pass is under way. -/
abbrev History (settings : Settings) (keys : Nat → Key.Pair) (bootstraps : Bootstrap.System) :=
  Run (Controller.step settings keys) ({ bootstraps } : Controller)

namespace History

variable {settings : Settings} {keys : Nat → Key.Pair} {bootstraps : Bootstrap.System}
  {n : Nat} {f : Flight}

def Hears (r : History settings keys bootstraps) (n flight : Nat) (x : Exchange) : Prop :=
  (r.state n).Asks flight x.query ∧ ∃ answer, r.event n = .reply flight answer ∧
    answer x.query = x.answer

/-- A write of a pass was answered, and not with a failure. -/
def Acknowledged (r : History settings keys bootstraps) (n : Nat) (f : Flight) (q : Query) : Prop :=
  ∃ m < n, ∃ answer, r.Hears m f.id ⟨q, answer⟩ ∧ Exchange.failure? f.name ⟨q, answer⟩ = none

/-- What came before a pass reports its machine ready. -/
structure Prepared (r : History settings keys bootstraps) (n : Nat) (f : Flight)
    (p : Plan) : Prop where
  grounded : ∃ h, p.Grounded f.ns f.name h ∧ ∀ x ∈ h, isForeign x.query = true →
    ∃ m < n, r.Hears m f.id x
  configMap : r.Acknowledged n f (.createConfigMap p.bundle.configMap)
  deployment : r.Acknowledged n f (.createDeployment p.deployment)
  providerId : r.Acknowledged n f
    (.setProviderId (p.owner.metadata.ns.getD f.ns) p.owner.metadata.nameAny
      ("kubemark://" ++ f.name))

def Learns (r : History settings keys bootstraps) (n flight : Nat) (x : Exchange) : Prop :=
  ∃ f ∈ (r.state n).flights, f.id = flight ∧ (∃ next, f.program = .ask x.query next) ∧
    (r.state n).Tells (r.event n) (r.effects n) f x

theorem Learns.hears {r : History settings keys bootstraps} {flight : Nat} {x : Exchange}
    (l : r.Learns n flight x) (foreign : isForeign x.query = true) : r.Hears n flight x := by
  obtain ⟨f, -, rfl, -, told⟩ := l
  cases told with
  | @cluster q answer _ event asks => exact ⟨asks, answer, event, rfl⟩
  | certificate | time | observed | released => cases foreign

theorem Learns.answered {r : History settings keys bootstraps} {flight : Nat}
    {request : Csr.IdentityRequest} {answer : Bootstrap.Answer}
    (l : r.Learns n flight ⟨.bootstrap request, answer⟩) :
    ∃ call, .bootstrap (.answer call answer) ∈ r.effects n := by
  obtain ⟨f, -, -, -, told⟩ := l
  generalize hx : (⟨.bootstrap request, answer⟩ : Exchange) = x at told
  cases told with
  | cluster foreign =>
      cases hx
      cases foreign
  | certificate waits answered =>
      cases hx
      exact ⟨_, answered⟩
  | time | observed | released => cases hx

theorem learnt (r : History settings keys bootstraps) (n : Nat) :
    ∀ f ∈ (r.state n).flights, f.Traced settings fun flight x => ∃ m < n, r.Learns m flight x := by
  induction n with
  | zero =>
      rw [r.state_zero]
      exact nofun
  | succ n ih =>
      refine (turn (r.step_eq n)).traced (fun f hf => ?_) fun f hf x next asked told => ?_
      · exact (ih f hf).imp fun x ⟨m, hm, learns⟩ => ⟨m, Nat.lt_succ_of_lt hm, learns⟩
      · exact ⟨n, Nat.lt_succ_self n, f, hf, rfl, ⟨next, asked⟩, told⟩

theorem ended (r : History settings keys bootstraps) {flight : Nat} {result : Result}
    {requeue : Option Nat} (h : .ended flight result requeue ∈ r.effects n) :
    ∃ f ∈ (r.state n).flights, f.id = flight ∧
      ∃ h, (provision settings f.ns f.name).Reaches h (.done result) ∧
        ∀ x ∈ h, ∃ m < n + 1, r.Learns m flight x := by
  obtain ⟨f, hf, rfl, t⟩ :=
    (turn (r.step_eq n)).ended (P := fun flight x => ∃ m < n + 1, r.Learns m flight x)
    (fun f hf => (r.learnt n f hf).imp fun x ⟨m, hm, learns⟩ => ⟨m, Nat.lt_succ_of_lt hm, learns⟩)
    (fun f hf x next asked told => ⟨n, Nat.lt_succ_self n, f, hf, rfl, ⟨next, asked⟩, told⟩) h
  exact ⟨f, hf, rfl, t⟩

theorem traced (r : History settings keys bootstraps) (n : Nat) :
    ∀ f ∈ (r.state n).flights, f.Traced settings fun flight x =>
      isForeign x.query = true → ∃ m < n, r.Hears m flight x := by
  intro f hf
  refine (r.learnt n f hf).imp fun x ⟨m, hm, learns⟩ foreign => ?_
  exact ⟨m, hm, learns.hears foreign⟩

theorem acknowledged_of_written {r : History settings keys bootstraps}
    {h : List Exchange} {q : Query}
    (happened : ∀ x ∈ h, isForeign x.query = true → ∃ m < n, r.Hears m f.id x)
    (clean : Clean f.name h) (hq : q ∈ written h) : r.Acknowledged n f q := by
  obtain ⟨hmem, hwrite⟩ := List.mem_filter.1 hq
  obtain ⟨x, hx, rfl⟩ := List.mem_map.1 hmem
  obtain ⟨m, hm, hears⟩ := happened x hx (Query.isForeign_of_isWrite hwrite)
  exact ⟨m, hm, x.answer, hears, clean x hx⟩

/-- A pass for a machine asks for its writes in order, and whatever happens between the steps of the
passes, a machine is reported ready only by a pass whose other writes were acknowledged before. -/
theorem writes_in_order (settings : Settings) :
    (∀ ns name h p, (provision settings ns name).Reaches h p → InOrder ns name h p) ∧
      ∀ (keys : Nat → Key.Pair) (bootstraps : Bootstrap.System) (r : History settings keys bootstraps) (n : Nat),
        ∀ f ∈ (r.state n).flights, ∀ ns name id next, f.program =
          .ask (.markReady ns name id) next → ns = f.ns ∧ name = f.name ∧ id = "kubemark://" ++
          f.name ∧ ∃ p, r.Prepared n f p := by
  refine ⟨fun ns name h p reached => inOrder reached,
    fun keys bootstraps r n f hf ns name id next hp => ?_⟩
  obtain ⟨h, reached, happened⟩ := r.traced n f hf
  rw [hp] at reached
  have order := inOrder reached
  have clean := order.acknowledged _ next rfl
  have hattempted :
    attempted h (.ask (.markReady ns name id) next) = written h ++ [.markReady ns name id] := rfl
  rcases order.planned with none | ⟨p, g, hfirst⟩
  · rw [hattempted] at none
    simp at none
  · rw [hattempted] at hfirst
    obtain ⟨hwritten, rfl, rfl, rfl⟩ := p.written_of_markReady hfirst
    refine ⟨rfl, rfl, rfl, p, ⟨h, g, happened⟩, ?_, ?_, ?_⟩ <;>
      exact acknowledged_of_written happened clean (by rw [hwritten]; simp)

def idle : Event := .bootstrap (.advance 0)

def ofEvents (events : List Event) : History settings keys bootstraps :=
  Run.ofEvents idle (fun _ => rfl) events

theorem event_ofEvents (events : List Event) (n : Nat) :
    (ofEvents events : History settings keys bootstraps).event n ∈ idle :: events :=
      Run.event_ofEvents _ _ _ n

open Simulation in
def readyWorld : World where
  kubemarkMachines :=
    let owner : OwnerReference := ⟨clusterApiGroup, none, none, "Machine", "o", ""⟩
    [(("n", "m"), ⟨{ name := some "m", ownerReferences := some [owner] }, {}, none⟩)]
  machines :=
    [(("n", "o"),
      ⟨{ name := some "o" },
      { clusterName := "c", bootstrap := ⟨some { name := "b" }, some "d"⟩ }⟩)]
  clusters := [(("n", "c"), ⟨{}, some ⟨true⟩⟩)]
  kubeadmConfigs := [(("n", "b"), ⟨{}, ⟨some ⟨⟨some ⟨"t"⟩⟩⟩⟩⟩)]
  secrets :=
    let kubeconfig := "clusters: [{name: a, cluster: {server: b}}]"
    [(("n", kubeconfigSecretName "c"), Dict.ofList [(kubeconfigSecretKey, kubeconfig)])]

/-- A pass gets an identity that its session has already, and goes on to its last report. -/
def readiness : History {} (fun _ => ⟨"", [], fun _ => []⟩)
    { now := 0, sessions := fun _ => ⟨.issued ⟨"", "", "", 1⟩, {}⟩ } :=
  let answered (k : Nat) : List Event :=
    List.replicate k (.reply 0 fun q => (readyWorld.answer q).1)
  Run.ofEvents (.bootstrap (.advance 0)) (fun _ => rfl)
    ([.begin "n" "m" true] ++ answered 8 ++ [.bootstrap (.acquire 0)] ++ answered 6)

theorem readiness_reports : ((readiness.state 16).flights.any fun f =>
    f.ns = "n" && f.name = "m" && match f.program with
    | .ask (.markReady ..) _ => true
    | _ => false) = true := by decide +kernel

theorem readiness_in_order : ∃ f ∈ (readiness.state 16).flights, ∃ h next,
    f.program = .ask (.markReady "n" "m" "kubemark://m") next ∧ InOrder "n" "m" h f.program ∧
      ∃ p, readiness.Prepared 16 f p := by
  obtain ⟨f, hf, hreports⟩ := List.any_eq_true.1 readiness_reports
  simp only [Bool.and_eq_true, decide_eq_true_eq] at hreports
  obtain ⟨⟨hns, hname⟩, hreports⟩ := hreports
  split at hreports
  next ns name id next hp =>
    obtain ⟨rfl, rfl, rfl, prepared⟩ :=
      (writes_in_order {}).2 _ _ readiness 16 f hf ns name id next hp
    obtain ⟨h, reached, _⟩ := readiness.traced 16 f hf
    have order := (writes_in_order {}).1 f.ns f.name h f.program reached
    rw [hns, hname] at hp order
    exact ⟨f, hf, h, next, hp, order, prepared⟩
  next => cases hreports

end History

end HollowNode.Controller
