import HollowNode.Proofs.Bootstrap.Alike
import HollowNode.Proofs.Bootstrap.Calls
import Mathlib.Data.Nat.Count

namespace HollowNode.Bootstrap

def Event.renumber (f : Nat → Nat) : Event → Event
  | start request => start request
  | acquire call => acquire (f call)
  | submitted call answer => submitted (f call) answer
  | polled call answer => polled (f call) answer
  | wake call => wake (f call)
  | cancel call => cancel (f call)
  | release key => release key
  | advance milliseconds => advance milliseconds

/-- Two systems do the same, for calls with different numbers. -/
inductive Effect.Alike (hidden : Prop) (f : Nat → Nat) : Effect → Effect → Prop
  | submit (call : Nat) {r q : Csr.SigningRequest} (same : SameRequest hidden r q) :
      Alike hidden f (.submit call r) (.submit (f call) q)
  | poll (call : Nat) (csr : String) : Alike hidden f (.poll call csr) (.poll (f call) csr)
  | sleep (call wakeAt : Nat) : Alike hidden f (.sleep call wakeAt) (.sleep (f call) wakeAt)
  | answer (call : Nat) {a b : Answer} (alike : a.Alike hidden b) :
      Alike hidden f (.answer call a) (.answer (f call) b)

/-- Some keys, and the calls, sessions and key pairs that are theirs. -/
structure View where
  keys : String → Bool
  calls : Nat → Prop
  sessions : Nat → Prop
  pairs : Nat → Prop

namespace View

open Classical in
noncomputable def call (v : View) (id : Nat) : Nat := Nat.count v.calls id

open Classical in
noncomputable def session (v : View) (i : Nat) : Nat := Nat.count v.sessions i

open Classical in
noncomputable def pair (v : View) (i : Nat) : Nat := Nat.count v.pairs i

noncomputable def shown (v : View) (c : Call) : Call :=
  { c with id := v.call c.id, session := v.session c.session }

noncomputable def entry (v : View) (e : Entry) : Entry := { e with session := v.session e.session }

structure Covers (v : View) (s : System) : Prop where
  call : ∀ c ∈ s.calls,
    (v.calls c.id ↔ v.keys c.request.key = true) ∧
    (v.sessions c.session ↔ v.keys c.request.key = true)
  entry : ∀ key e, s.registry.get? key = some e → (v.sessions e.session ↔ v.keys key = true)

structure Has (v : View) (c : Call) : Prop where
  key : v.keys c.request.key = true
  call : v.calls c.id
  session : v.sessions c.session

/-- The second system is what is seen of the first. -/
structure Shows (v : View) (hidden : Prop) (s t : System) : Prop where
  now : t.now = s.now
  calls : t.calls = (s.calls.filter fun c => v.keys c.request.key).map v.shown
  sessions : ∀ i, v.sessions i → (s.sessions i).Alike hidden (t.sessions (v.session i))
  entries : ∀ key, v.keys key = true → t.registry.get? key = (s.registry.get? key).map v.entry
  callsMade : t.callsMade = v.call s.callsMade
  sessionsMade : t.sessionsMade = v.session s.sessionsMade
  generated : t.generated = v.pair s.generated

structure Agrees (v : View) (hidden : Prop) (p q : System × List Effect) : Prop where
  system : v.Shows hidden p.1 q.1
  effects : List.Forall₂ (Effect.Alike hidden v.call) p.2 q.2

variable {v : View} {hidden : Prop} {limits : Limits} {keys keys' : Nat → Key.Pair}
  {s t s' : System} {c d : Call} {i j id : Nat}

@[simp]
theorem shown_id : (v.shown c).id = v.call c.id := rfl

@[simp]
theorem shown_request : (v.shown c).request = c.request := rfl

@[simp]
theorem shown_session : (v.shown c).session = v.session c.session := rfl

@[simp]
theorem shown_phase : (v.shown c).phase = c.phase := rfl

theorem call_inj (hi : v.calls i) (hj : v.calls j) : v.call i = v.call j ↔ i = j :=
  ⟨fun h => open Classical in Nat.count_injective hi hj h, fun h => by rw [h]⟩

theorem session_inj (hi : v.sessions i) (hj : v.sessions j) : v.session i = v.session j ↔ i = j :=
  ⟨fun h => open Classical in Nat.count_injective hi hj h, fun h => by rw [h]⟩

theorem Covers.has (covers : v.Covers s) (hc : c ∈ s.calls) (key : v.keys c.request.key = true) :
    v.Has c :=
  ⟨key, (covers.call c hc).1.2 key, (covers.call c hc).2.2 key⟩

theorem Covers.has_of_call (covers : v.Covers s) (hc : c ∈ s.calls) (h : v.calls c.id) : v.Has c :=
  covers.has hc ((covers.call c hc).1.1 h)

theorem Covers.has_of_session (covers : v.Covers s) (hc : c ∈ s.calls) (h : v.sessions c.session) :
    v.Has c :=
  covers.has hc ((covers.call c hc).2.1 h)

theorem find?_congr {l : List Call} {p q : Call → Bool} (h : ∀ c ∈ l, p c = q c) :
    l.find? p = l.find? q := by
  induction l with
  | nil => rfl
  | cons c l ih =>
      have hl := ih fun d hd => h d (List.mem_cons_of_mem _ hd)
      simp only [List.find?_cons, h c (.head _), hl]

theorem Shows.find? (h : v.Shows hidden s t) {p q : Call → Bool}
    (hpq : ∀ c ∈ s.calls, v.keys c.request.key = true → q (v.shown c) = p c)
    (hp : ∀ c ∈ s.calls, p c = true → v.keys c.request.key = true) :
    t.calls.find? q = (s.calls.find? p).map v.shown := by
  rw [h.calls, List.find?_map, List.find?_filter]
  congr 1
  refine find?_congr fun c hc => ?_
  cases hkey : v.keys c.request.key with
  | true => simpa using hpq c hc hkey
  | false =>
      have : p c ≠ true := fun hpc => by simp [hp c hc hpc] at hkey
      simpa using this

theorem Shows.call? (h : v.Shows hidden s t) (covers : v.Covers s) (hid : v.calls id) :
    t.call? (v.call id) = (s.call? id).map v.shown := by
  refine h.find? (fun c hc key => ?_) fun c hc hcid => ?_
  · have := call_inj (covers.has hc key).call hid
    simp [shown, this]
  · have hcid : c.id = id := by simpa using hcid
    exact (covers.call c hc).1.1 (hcid ▸ hid)

theorem Shows.isNext (h : v.Shows hidden s t) (covers : v.Covers s) (has : v.Has c) :
    t.isNext (v.shown c) = s.isNext c := by
  have first : t.calls.find? (·.session = (v.shown c).session) =
      (s.calls.find? (·.session = c.session)).map v.shown := by
    refine h.find? (fun d hd key => ?_) fun d hd hds => ?_
    · have := session_inj (covers.has hd key).session has.session
      simp [shown, this]
    · have hds : d.session = c.session := by simpa using hds
      exact (covers.call d hd).2.1 (hds ▸ has.session)
  rw [System.isNext, System.isNext, first]
  cases hf : s.calls.find? (·.session = c.session) with
  | none => rfl
  | some d =>
      have hds : d.session = c.session := by simpa using List.find?_some hf
      have hd := covers.has_of_session (List.mem_of_find?_eq_some hf) (hds ▸ has.session)
      have hiff : (v.shown d).id = (v.shown c).id ↔ d.id = c.id := call_inj hd.call has.call
      simp only [Option.map_some, Option.any_some, hiff]
      rfl

theorem Shows.inFlight (h : v.Shows hidden s t) (covers : v.Covers s) (hi : v.sessions i) :
    t.inFlight (v.session i) = s.inFlight i := by
  rw [System.inFlight, System.inFlight, h.calls, List.any_map, List.any_filter, Bool.eq_iff_iff,
    List.any_eq_true, List.any_eq_true]
  refine exists_congr fun c => and_congr_right fun hc => ?_
  cases hkey : v.keys c.request.key with
  | true =>
      have := session_inj (covers.has hc hkey).session hi
      simp [shown, this]
  | false =>
      have : c.session ≠ i := by
        rintro rfl
        simp [(covers.call c hc).2.1 hi] at hkey
      simpa using this

theorem Shows.setSession (h : v.Shows hidden s t) (hi : v.sessions i) {x y : Session}
    (alike : x.Alike hidden y) : v.Shows hidden (s.setSession i x) (t.setSession (v.session i) y) :=
  { h with
    sessions := by
      intro j hj
      by_cases hji : j = i
      · simpa [System.setSession, hji] using alike
      · have : v.session j ≠ v.session i := fun he => hji ((session_inj hj hi).1 he)
        simpa [System.setSession, hji, this] using h.sessions j hj }

theorem Shows.mapCall (h : v.Shows hidden s t) (covers : v.Covers s) (hid : v.calls id)
    (f : Call → Call) (hf : ∀ c, f (v.shown c) = v.shown (f c))
    (hkey : ∀ c, (f c).request = c.request) :
    v.Shows hidden { s with calls := s.calls.map fun c => if c.id = id then f c else c }
      { t with calls := t.calls.map fun c => if c.id = v.call id then f c else c } :=
  { h with
    calls := by
      have hrequest (c : Call) : (if c.id = id then f c else c).request = c.request := by
        split
        · exact hkey c
        · rfl
      simp only [h.calls, List.map_map, List.filter_map, Function.comp_def, hrequest]
      refine List.map_congr_left fun c hc => ?_
      obtain ⟨hc, key⟩ := List.mem_filter.1 hc
      have hiff : (v.shown c).id = v.call id ↔ c.id = id := call_inj (covers.has hc key).call hid
      by_cases hcid : c.id = id
      · rw [if_pos hcid, if_pos (hiff.2 hcid), hf]
      · rw [if_neg hcid, if_neg (mt hiff.1 hcid)] }

theorem Shows.setPhase (h : v.Shows hidden s t) (covers : v.Covers s) (hid : v.calls id)
    (phase : Phase) : v.Shows hidden (s.setPhase id phase) (t.setPhase (v.call id) phase) :=
  h.mapCall covers hid (fun c => { c with phase }) (fun _ => rfl) fun _ => rfl

theorem Shows.release (h : v.Shows hidden s t) (key : String) :
    v.Shows hidden (s.release key) (t.release key) :=
  { h with
    entries := by
      intro k hk
      simp only [System.release, Dict.get?_erase]
      split
      · rfl
      · exact h.entries k hk }

theorem Shows.finish (h : v.Shows hidden s t) (covers : v.Covers s) (has : v.Has c) {a b : Answer}
    (alike : a.Alike hidden b) : v.Agrees hidden (s.finish c a) (t.finish (v.shown c) b) where
  system :=
    { h with
      calls := by
        simp only [System.finish, h.calls, List.filter_map, List.filter_filter, Function.comp_def]
        congr 1
        refine List.filter_congr fun d hd => ?_
        cases key : v.keys d.request.key with
        | true =>
            have hiff := call_inj (covers.has hd key).call has.call
            simp [hiff]
        | false => simp }
  effects := .cons (.answer c.id alike) .nil

theorem Covers.mono (covers : v.Covers s)
    (calls : ∀ c ∈ s'.calls, ∃ d ∈ s.calls, d.id = c.id ∧ d.request = c.request ∧
      d.session = c.session)
    (entries : ∀ key e, s'.registry.get? key = some e → s.registry.get? key = some e) :
    v.Covers s' where
  call c hc := by
    obtain ⟨d, hd, hid, hrequest, hsession⟩ := calls c hc
    rw [← hid, ← hrequest, ← hsession]
    exact covers.call d hd
  entry key e hk := covers.entry key e (entries key e hk)

theorem Covers.setSession (covers : v.Covers s) (i : Nat) (session : Session) :
    v.Covers (s.setSession i session) :=
  ⟨covers.call, covers.entry⟩

theorem get?_release {key k : String} {e : Entry} (hk : (s.release k).registry.get? key = some e) :
    s.registry.get? key = some e := by
  rw [System.release, Dict.get?_erase] at hk
  split at hk
  · cases hk
  · exact hk

theorem Shows.fail (h : v.Shows hidden s t) (covers : v.Covers s) (has : v.Has c) (fault : Fault) :
    v.Agrees hidden (s.fail c fault) (t.fail (v.shown c) fault) := by
  have alike : Session.Alike hidden ⟨.failed fault.message, {}⟩ ⟨.failed fault.message, {}⟩ :=
    ⟨.failed fault.message, Store.alike_empty⟩
  have failed := (h.setSession has.session alike).release c.request.key
  exact failed.finish ⟨covers.call, fun key e hk => covers.entry key e (get?_release hk)⟩ has
    (.error fault)

theorem Shows.go (h : v.Shows hidden s t) (covers : v.Covers s) (has : v.Has c) {x y : Session}
    (alike : x.Alike hidden y) (phase : Phase) :
    v.Shows hidden ((s.setSession c.session x).setPhase c.id phase)
      ((t.setSession (v.session c.session) y).setPhase (v.call c.id) phase) :=
  (h.setSession has.session alike).setPhase (covers.setSession _ _) has.call phase

theorem Shows.submit (h : v.Shows hidden s t) (covers : v.Covers s) (has : v.Has c)
    (same : SamePair hidden (keys s.generated) (keys' t.generated)) (drawn : v.pairs s.generated) :
    v.Agrees hidden (s.submit keys c) (t.submit keys' (v.shown c)) := by
  have alike : Session.Alike hidden
      ⟨.requesting, (s.sessions c.session).store.setPrivateKey (keys s.generated).privatePem⟩
      ⟨.requesting,
        (t.sessions (v.shown c).session).store.setPrivateKey (keys' t.generated).privatePem⟩ :=
    ⟨.requesting,
      .setPrivateKey (same.map _ id) (s.sessions c.session).store
      (t.sessions (v.shown c).session).store⟩
  have waits := h.go covers has alike (.submitting s.now)
  refine ⟨?_, .cons (.submit c.id (sameRequest_new same c.request)) .nil⟩
  have generated : t.generated + 1 = v.pair (s.generated + 1) := by
    rw [h.generated]
    exact (open Classical in Nat.count_succ_eq_succ_count drawn).symm
  have hnow : t.now = s.now := h.now
  rw [System.submit, System.submit, hnow]
  exact { waits with generated }

theorem Shows.poll (h : v.Shows hidden s t) (covers : v.Covers s) (has : v.Has c) (start : Nat) :
    v.Agrees hidden (s.poll c start) (t.poll (v.shown c) start) := by
  obtain ⟨hstate, hstore⟩ := h.sessions c.session has.session
  have fails := h.fail covers has (.failed c.request.key "there is no request to poll")
  simp only [System.poll, shown_session, shown_request]
  generalize (s.sessions c.session).state = state,
    (t.sessions (v.session c.session)).state = other at hstate
  cases hstate with
  | idle | requesting | issued | failed => exact fails
  | polling csr submittedAt polls =>
      dsimp only
      by_cases stopped : c.cancelled = true
      · rw [if_pos stopped, if_pos (show (v.shown c).cancelled = true from stopped)]
        exact h.finish covers has (.error _)
      · rw [if_neg stopped, if_neg (show ¬(v.shown c).cancelled = true from stopped)]
        have alike : Session.Alike hidden ⟨.polling csr submittedAt (polls + 1),
            (s.sessions c.session).store⟩ ⟨.polling csr submittedAt (polls + 1),
            (t.sessions (v.session c.session)).store⟩ :=
          ⟨.polling csr submittedAt (polls + 1), hstore⟩
        exact ⟨h.go covers has alike (.polling start), .cons (.poll c.id csr) .nil⟩

theorem Shows.acquire (h : v.Shows hidden s t) (covers : v.Covers s) (has : v.Has c)
    (pairs : ∀ g, v.pairs g → SamePair hidden (keys g) (keys' (v.pair g)))
    (drawn : ∀ request, .submit c.id request ∈ (s.acquire keys c).2 → v.pairs s.generated) :
    v.Agrees hidden (s.acquire keys c) (t.acquire keys' (v.shown c)) := by
  have hstate := (h.sessions c.session has.session).state
  have polls := h.poll covers has s.now
  have submits {s' t' : System} (h' : v.Shows hidden s' t') (covers' : v.Covers s')
      (same : s'.generated = s.generated) (drawn : v.pairs s.generated) : v.Agrees hidden
      (s'.submit keys c) (t'.submit keys' (v.shown c)) := by
    refine h'.submit covers' has ?_ (same ▸ drawn)
    rw [h'.generated]
    exact pairs _ (same ▸ drawn)
  have hnow := h.now
  simp only [System.acquire, shown_session, shown_request] at drawn ⊢
  generalize (s.sessions c.session).state = state,
    (t.sessions (v.session c.session)).state = other at hstate drawn ⊢
  cases hstate with
  | idle | requesting => exact submits h covers rfl (drawn _ (.head _))
  | polling => rw [hnow]; exact polls
  | failed reason => exact h.finish covers has (.error _)
  | @issued i j same =>
      dsimp only at drawn ⊢
      rw [same.outlives_eq, hnow]
      cases alive : i.outlives s.now with
      | true => exact h.finish covers has (.issued same)
      | false =>
          simp only [alive, Bool.false_eq_true, if_false] at drawn ⊢
          have cleared := h.setSession has.session Session.Alike.empty
          exact submits cleared (covers.setSession _ _) rfl (drawn _ (.head _))

theorem Shows.submitted (h : v.Shows hidden s t) (covers : v.Covers s) (has : v.Has c) (start : Nat)
    (answer : Except Csr.Fault String) :
    v.Agrees hidden (s.submitted c start answer) (t.submitted (v.shown c) start answer) := by
  cases answer with
  | error fault => exact h.fail covers has _
  | ok csr =>
      have alike : Session.Alike hidden ⟨.polling csr s.now 0, (s.sessions c.session).store⟩
          ⟨.polling csr t.now 0, (t.sessions (v.session c.session)).store⟩ :=
        ⟨by rw [h.now]; exact .polling csr s.now 0, (h.sessions c.session has.session).store⟩
      exact (h.setSession has.session alike).poll (covers.setSession _ _) has start

theorem Shows.wait (h : v.Shows hidden s t) (covers : v.Covers s) (has : v.Has c)
    (start submittedAt : Nat) :
    v.Agrees hidden (s.wait limits c start submittedAt)
      (t.wait limits (v.shown c) start submittedAt) := by
  simp only [System.wait, h.now, shown_request]
  split
  · exact h.fail covers has _
  · split
    · exact h.finish covers has (.error _)
    · split
      · exact h.finish covers has (.pending _)
      · by_cases stopped : c.cancelled = true
        · rw [if_pos stopped, if_pos (show (v.shown c).cancelled = true from stopped)]
          exact h.finish covers has (.error _)
        · rw [if_neg stopped, if_neg (show ¬(v.shown c).cancelled = true from stopped)]
          exact ⟨h.setPhase covers has.call _, .cons (.sleep c.id _) .nil⟩

theorem Shows.settle (limits : Limits) (h : v.Shows hidden s t) (covers : v.Covers s)
    (has : v.Has c) (start : Nat) {x y : Session} (alike : x.Alike hidden y) : v.Agrees hidden
      (match x.store.current s.now, x.state with
        | .ok identity, _ =>
          (s.setSession c.session ⟨.issued identity, x.store⟩).finish c (.ok (.issued identity))
        | .error .noPair, .polling _ submittedAt _ => s.wait limits c start submittedAt
        | .error fault, _ => s.fail c (.failed c.request.key fault.message))
      (match y.store.current t.now, y.state with
        | .ok identity, _ =>
          (t.setSession (v.session c.session) ⟨.issued identity, y.store⟩).finish (v.shown c)
            (.ok (.issued identity))
        | .error .noPair, .polling _ submittedAt _ => t.wait limits (v.shown c) start submittedAt
        | .error fault, _ => t.fail (v.shown c) (.failed c.request.key fault.message)) := by
  obtain ⟨hstate, hstore⟩ := alike
  rw [h.now]
  rcases hstore.current s.now with ⟨i, j, hi, hj, same⟩ | ⟨fault, hi, hj⟩
  · rw [hi, hj]
    have alike : Session.Alike hidden ⟨.issued i, x.store⟩ ⟨.issued j, y.store⟩ :=
      ⟨.issued same, hstore⟩
    exact (h.setSession has.session alike).finish (covers.setSession _ _) has
      (.issued same)
  · rw [hi, hj]
    generalize x.state = state, y.state = other at hstate
    cases fault with
    | unreadable | notValid => exact h.fail covers has _
    | noPair =>
        cases hstate with
        | idle | requesting | issued | failed => exact h.fail covers has _
        | polling csr submittedAt polls => exact h.wait covers has start submittedAt

theorem Shows.polled (h : v.Shows hidden s t) (covers : v.Covers s) (has : v.Has c) (start : Nat)
    (answer : Except Csr.Fault (Option String)) :
    v.Agrees hidden (s.polled limits c start answer)
      (t.polled limits (v.shown c) start answer) := by
  cases answer with
  | error fault => exact h.fail covers has _
  | ok certificate =>
      obtain ⟨hstate, hstore⟩ := h.sessions c.session has.session
      have settles {x y : Store} (stored : x.Alike hidden y) :=
        have alike : Session.Alike hidden ⟨(s.sessions c.session).state, x⟩
            ⟨(t.sessions (v.session c.session)).state, y⟩ := ⟨hstate, stored⟩
        (h.setSession has.session alike).settle limits (covers.setSession _ _) has start alike
      cases certificate with
      | none => exact settles hstore
      | some pem => exact settles (hstore.updateCertificate pem)

theorem Shows.cancel (h : v.Shows hidden s t) (covers : v.Covers s) (has : v.Has c) :
    v.Agrees hidden (s.cancel c) (t.cancel (v.shown c)) := by
  simp only [System.cancel, shown_phase, shown_request]
  cases c.phase with
  | queued | sleeping => exact h.finish covers has (.error _)
  | submitting | polling =>
      exact ⟨h.mapCall covers has.call (fun d => { d with cancelled := true }) (fun _ => rfl)
        fun _ => rfl, .nil⟩

end View

end HollowNode.Bootstrap
