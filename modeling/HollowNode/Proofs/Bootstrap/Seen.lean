import HollowNode.Proofs.Bootstrap.View

namespace HollowNode.Bootstrap

namespace View

variable {v : View} {hidden : Prop} {limits : Limits} {keys keys' : Nat → Key.Pair}
  {s t s' : System} {c d : Call} {id : Nat} {e : Event} {fs : List Effect}

theorem shows_initial (v : View) (hidden : Prop) (now : Nat) :
    v.Shows hidden ({ now } : System) ({ now } : System) where
  now := rfl
  calls := rfl
  sessions _ _ := .empty
  entries _ _ := rfl
  callsMade := by simp [View.call]
  sessionsMade := by simp [View.session]
  generated := by simp [View.pair]

/-- A call that starts is counted with those of its key, and so is the session that is made for
it. -/
structure Admits (v : View) (s : System) (request : Csr.IdentityRequest) : Prop where
  call : v.calls s.callsMade ↔ v.keys request.key = true
  session : s.registry.get? request.key = none →
    (v.sessions s.sessionsMade ↔ v.keys request.key = true)

theorem Covers.start (covers : v.Covers s) {request : Csr.IdentityRequest}
    (admits : v.Admits s request) : v.Covers (s.start limits request) := by
  have found : v.sessions (s.sessionFor request.key) ↔ v.keys request.key = true := by
    cases hk : s.registry.get? request.key with
    | none =>
        have hnew : s.sessionFor request.key = s.sessionsMade := by simp [System.sessionFor, hk]
        rw [hnew]
        exact admits.session hk
    | some e =>
        rw [System.sessionFor_eq hk]
        exact covers.entry _ e hk
  refine ⟨fun c hc => ?_, fun key e hk => ?_⟩
  · rcases System.mem_start.1 hc with hc | rfl
    · exact covers.call c hc
    · exact ⟨admits.call, found⟩
  · rcases System.get?_start_eq_some hk with ⟨rfl, rfl⟩ | ⟨_, hk, _⟩
    · exact found
    · exact covers.entry key e hk

theorem Covers.next (covers : v.Covers s) (hs : s.Orderly)
    (step : System.Step limits keys s e s' fs)
    (admits : ∀ request, e = .start request → v.Admits s request) : v.Covers s' := by
  cases step with
  | start request => exact covers.start (admits request rfl)
  | release key => exact covers.mono (fun d hd => ⟨d, hd, rfl, rfl, rfl⟩) fun _ _ => get?_release
  | advance milliseconds => exact ⟨covers.call, covers.entry⟩
  | @move c e m mem moves =>
      refine covers.mono (fun d hd => ?_) fun _ _ => System.get?_of_get?_after
      rcases (hs.mem_after mem).1 hd with ⟨hd, _⟩ | hd
      · exact ⟨d, hd, rfl, rfl, rfl⟩
      · obtain ⟨hid, hsession, hrequest⟩ := System.Move.call?_eq hd
        exact ⟨c, mem, hid.symm, hrequest.symm, hsession.symm⟩

theorem Shows.sessionFor (h : v.Shows hidden s t) {key : String} (hkey : v.keys key = true) :
    t.sessionFor key = v.session (s.sessionFor key) := by
  simp only [System.sessionFor, h.entries key hkey, h.sessionsMade]
  cases s.registry.get? key <;> rfl

theorem Shows.stays (h : v.Shows hidden s t) (covers : v.Covers s) {e : Entry}
    (he : v.sessions e.session) : t.stays limits (v.entry e) = s.stays limits e := by
  rw [System.stays, System.stays, entry, h.inFlight covers he, h.now]

theorem Shows.start (h : v.Shows hidden s t) (covers : v.Covers s) {request : Csr.IdentityRequest}
    (admits : v.Admits s request) (hkey : v.keys request.key = true) :
    v.Shows hidden (s.start limits request) (t.start limits request) where
  now := by simpa using h.now
  calls := by
    rw [System.start_calls, System.start_calls, h.sessionFor hkey, h.callsMade, h.calls,
      List.filter_append, List.map_append]
    simp [hkey, shown]
  sessions := by
    rw [System.start_sessions, System.start_sessions]
    exact h.sessions
  entries key hk := by
    rw [System.get?_start, System.get?_start, h.sessionFor hkey, h.now, h.entries key hk]
    split
    · rfl
    · cases he : s.registry.get? key with
      | none => rfl
      | some e =>
          have hstays : t.stays limits (v.entry e) = s.stays limits e :=
            h.stays covers ((covers.entry key e he).2 hk)
          cases hs : s.stays limits e <;> simp [Option.filter, hstays, hs]
  callsMade := by
    rw [System.start_callsMade, System.start_callsMade, h.callsMade]
    exact (open Classical in Nat.count_succ_eq_succ_count (admits.call.2 hkey)).symm
  sessionsMade := by
    rw [System.start_sessionsMade, System.start_sessionsMade, h.entries _ hkey, h.sessionsMade]
    cases hk : s.registry.get? request.key with
    | none =>
        have made := (admits.session hk).2 hkey
        exact (open Classical in Nat.count_succ_eq_succ_count made).symm
    | some e => rfl
  generated := by simpa using h.generated

theorem Shows.start_other (h : v.Shows hidden s t) {request : Csr.IdentityRequest}
    (admits : v.Admits s request) (hkey : v.keys request.key = false)
    (stay : ∀ key e, v.keys key = true → s.registry.get? key = some e → s.stays limits e = true) :
    v.Shows hidden (s.start limits request) t where
  now := by simpa using h.now
  calls := by rw [System.start_calls, List.filter_append, h.calls]; simp [hkey]
  sessions := by
    rw [System.start_sessions]
    exact h.sessions
  entries key hk := by
    have hne : key ≠ request.key := by
      rintro rfl
      rw [hkey] at hk
      cases hk
    rw [System.get?_start, if_neg hne, h.entries key hk]
    cases he : s.registry.get? key with
    | none => rfl
    | some e => simp [Option.filter, stay key e hk he]
  callsMade := by
    have uncounted : ¬v.calls s.callsMade := by simp [admits.call, hkey]
    rw [System.start_callsMade, h.callsMade]
    exact (open Classical in Nat.count_succ_eq_count uncounted).symm
  sessionsMade := by
    rw [System.start_sessionsMade, h.sessionsMade]
    cases hk : s.registry.get? request.key with
    | none =>
        have uncounted : ¬v.sessions s.sessionsMade := by simp [admits.session hk, hkey]
        exact (open Classical in Nat.count_succ_eq_count uncounted).symm
    | some e => rfl
  generated := by simpa using h.generated

theorem filter_map_of_ne {f : Call → Call} (hf : ∀ c, (f c).request = c.request)
    (hne : ∀ d ∈ s.calls, v.keys d.request.key = true → d.id ≠ id) :
    (s.calls.map fun d => if d.id = id then f d else d).filter (fun d => v.keys d.request.key) =
      s.calls.filter fun d => v.keys d.request.key := by
  have hrequest (d : Call) : (if d.id = id then f d else d).request = d.request := by
    split
    · exact hf d
    · rfl
  simp only [List.filter_map, Function.comp_def, hrequest]
  refine (List.map_congr_left (g := fun d => d) fun d hd => ?_).trans (List.map_id' _)
  obtain ⟨hd, key⟩ := List.mem_filter.1 hd
  exact if_neg (hne d hd key)

theorem Shows.after (h : v.Shows hidden s t) (covers : v.Covers s) {m : Move} (hc : c ∈ s.calls)
    (hkey : v.keys c.request.key = false)
    (undrawn : ∀ session, m = .submit session → ¬v.pairs s.generated) :
    v.Shows hidden (s.after keys c m).1 t where
  now := by simpa using h.now
  calls := by
    have hne : ∀ d ∈ s.calls, v.keys d.request.key = true → d.id ≠ c.id := by
      intro d hd key hid
      have := (covers.call c hc).1.1 (hid ▸ (covers.has hd key).call)
      simp [hkey] at this
    rw [h.calls]
    congr 1
    cases m with
    | leave | fail =>
        simp only [System.after, System.finish, System.fail, System.release, System.setSession,
          List.filter_filter]
        refine List.filter_congr fun d hd => ?_
        cases key : v.keys d.request.key with
        | true => simpa using hne d hd key
        | false => rfl
    | submit =>
        exact (filter_map_of_ne (f := fun d => { d with phase := .submitting s.now })
          (fun _ => rfl) hne).symm
    | go _ phase =>
        exact (filter_map_of_ne (f := fun d => { d with phase }) (fun _ => rfl) hne).symm
    | note =>
        exact (filter_map_of_ne (f := fun d => { d with cancelled := true })
          (fun _ => rfl) hne).symm
  sessions i hi := by
    have hne : i ≠ c.session := by
      rintro rfl
      simp [(covers.call c hc).2.1 hi] at hkey
    rw [System.after_sessions_of_ne hne]
    exact h.sessions i hi
  entries key hk := by
    have hne : key ≠ c.request.key := by
      rintro rfl
      rw [hkey] at hk
      cases hk
    rw [h.entries key hk]
    by_cases fails : m.Fails
    · rw [System.after_registry_of_fails fails, Dict.get?_erase, if_neg hne]
    · rw [System.after_registry fails]
  callsMade := by simpa using h.callsMade
  sessionsMade := by simpa using h.sessionsMade
  generated := by
    cases m with
    | submit session =>
        exact h.generated.trans
          (open Classical in Nat.count_succ_eq_count (undrawn session rfl)).symm
    | leave | fail | go | note => exact h.generated

def Sees (v : View) : Event → Prop
  | .start request => v.keys request.key = true
  | .release key => v.keys key = true
  | .acquire id | .submitted id _ | .polled id _ | .wake id | .cancel id => v.calls id
  | .advance _ => True

/-- What is seen can happen in the system that is left if and only if it can happen. It leads to the
same there, if what it needs is counted. -/
theorem Shows.step (limits : Limits) (h : v.Shows hidden s t) (covers : v.Covers s)
    (sees : v.Sees e) (pairs : ∀ g, v.pairs g → SamePair hidden (keys g) (keys' (v.pair g))) :
    Option.Rel (fun p q => (∀ request, e = .start request → v.Admits s request) →
        (∀ id request, .submit id request ∈ p.2 → v.pairs s.generated) → v.Agrees hidden p q)
      (s.step limits keys e) (t.step limits keys' (e.renumber v.call)) := by
  -- An event of a call is one of the call in both systems or in neither.
  have call {id : Nat} (hid : v.calls id) {R : System × List Effect → System × List Effect → Prop}
      (f g : Call → Option (System × List Effect))
      (hfg : ∀ c, v.Has c → Option.Rel R (f c) (g (v.shown c))) :
      Option.Rel R ((s.call? id).bind f) ((t.call? (v.call id)).bind g) := by
    rw [h.call? covers hid]
    cases hf : s.call? id with
    | none => exact .none
    | some c =>
        obtain ⟨hc, rfl⟩ := System.mem_of_call? hf
        exact hfg c (covers.has_of_call hc hid)
  cases e with
  | start request => exact .some fun admits _ => ⟨h.start covers (admits request rfl) sees, .nil⟩
  | release key => exact .some fun _ _ => ⟨h.release key, .nil⟩
  | advance milliseconds =>
      exact .some fun _ _ => ⟨{ h with now := congrArg (· + milliseconds) h.now }, .nil⟩
  | acquire id =>
      refine call sees _ _ fun c has => ?_
      rw [h.isNext covers has]
      cases s.isNext c with
      | false => exact .none
      | true =>
          exact .some fun _ drawn => h.acquire covers has pairs fun request => drawn c.id request
  | submitted id answer =>
      refine call sees _ _ fun c has => ?_
      rw [shown_phase]
      cases c.phase with
      | submitting start => exact .some fun _ _ => h.submitted covers has start answer
      | queued | polling | sleeping => exact .none
  | polled id answer =>
      refine call sees _ _ fun c has => ?_
      rw [shown_phase]
      cases c.phase with
      | polling start => exact .some fun _ _ => h.polled covers has start answer
      | queued | submitting | sleeping => exact .none
  | wake id =>
      refine call sees _ _ fun c has => ?_
      rw [shown_phase]
      cases c.phase with
      | sleeping start wakeAt =>
          dsimp only
          rw [h.now]
          split
          · exact .some fun _ _ => h.poll covers has start
          · exact .none
      | queued | submitting | polling => exact .none
  | cancel id => exact call sees _ _ fun c has => .some fun _ _ => h.cancel covers has

theorem isSome_of_rel {α : Type} {related : α → α → Prop} {a b : Option α}
    (h : Option.Rel related a b) : b.isSome = a.isSome := by
  cases h with
  | some | none => rfl

theorem Shows.step_other (h : v.Shows hidden s t) (covers : v.Covers s)
    (step : System.Step limits keys s e s' fs) (unseen : ¬v.Sees e)
    (admits : ∀ request, e = .start request → v.Admits s request)
    (undrawn : ∀ id request, .submit id request ∈ fs → ¬v.pairs s.generated)
    (stay : ∀ request, e = .start request → ∀ key entry, v.keys key = true →
      s.registry.get? key = some entry → s.stays limits entry = true) : v.Shows hidden s' t := by
  cases step with
  | start request =>
      exact h.start_other (admits request rfl) (by simpa [Sees] using unseen) (stay request rfl)
  | release key =>
      refine { h with entries := fun k hk => ?_ }
      have hne : k ≠ key := by
        rintro rfl
        exact unseen hk
      rw [h.entries k hk, System.release, Dict.get?_erase, if_neg hne]
  | advance milliseconds => exact absurd trivial unseen
  | @move c e m mem moves =>
      have hcall : ¬v.calls c.id := by
        cases moves <;> exact unseen
      have hkey : v.keys c.request.key = false := by
        rw [← Bool.not_eq_true, ← (covers.call c mem).1]
        exact hcall
      refine h.after covers mem hkey fun session hm => ?_
      subst hm
      exact undrawn c.id _ (.head _)

end View

namespace View

def whole : View := ⟨fun _ => true, fun _ => True, fun _ => True, fun _ => True⟩

theorem call_whole : whole.call = id :=
  funext fun _ => open Classical in Nat.count_of_forall fun _ _ => trivial

theorem session_whole : whole.session = id :=
  funext fun _ => open Classical in Nat.count_of_forall fun _ _ => trivial

theorem pair_whole : whole.pair = id :=
  funext fun _ => open Classical in Nat.count_of_forall fun _ _ => trivial

theorem covers_whole (s : System) : whole.Covers s where
  call _ _ := by simp [whole]
  entry _ _ _ := by simp [whole]

theorem admits_whole (s : System) (request : Csr.IdentityRequest) : whole.Admits s request where
  call := by simp [whole]
  session _ := by simp [whole]

end View

theorem Event.renumber_id (e : Event) : e.renumber id = e := by
  cases e <;> rfl

/-- Two systems differ in their private keys only. -/
abbrev System.Alike (hidden : Prop) (s t : System) : Prop := View.whole.Shows hidden s t

namespace System.Alike

variable {hidden : Prop} {limits : Limits} {keys keys' : Nat → Key.Pair} {s t : System}

theorem refl (s : System) : s.Alike hidden s where
  now := rfl
  calls := by
    have hshown : View.whole.shown = id := by
      funext c
      rw [View.shown, View.call_whole, View.session_whole]
      rfl
    have hall : (s.calls.filter fun c => View.whole.keys c.request.key) = s.calls :=
      List.filter_eq_self.2 fun _ _ => rfl
    rw [hshown, List.map_id, hall]
  sessions i _ := by
    rw [View.session_whole]
    exact .refl _
  entries key _ := by
    have hentry : View.whole.entry = id := by
      funext e
      rw [View.entry, View.session_whole]
      rfl
    rw [hentry, Option.map_id_fun, id]
  callsMade := by rw [View.call_whole]; rfl
  sessionsMade := by rw [View.session_whole]; rfl
  generated := by rw [View.pair_whole]; rfl

theorem callsMade (h : s.Alike hidden t) : t.callsMade = s.callsMade := by
  have := View.Shows.callsMade h
  rwa [View.call_whole] at this

theorem session (h : s.Alike hidden t) (i : Nat) : (s.sessions i).Alike hidden (t.sessions i) := by
  have := View.Shows.sessions h i trivial
  rwa [View.session_whole] at this

theorem start (h : s.Alike hidden t) (request : Csr.IdentityRequest) :
    (s.start limits request).Alike hidden (t.start limits request) :=
  View.Shows.start h (View.covers_whole s) (View.admits_whole s request) rfl

theorem step (limits : Limits) (h : s.Alike hidden t)
    (pairs : ∀ g, SamePair hidden (keys g) (keys' g)) (e : Event) :
    Option.Rel (fun p q => p.1.Alike hidden q.1 ∧ List.Forall₂ (Effect.Alike hidden id) p.2 q.2)
      (s.step limits keys e) (t.step limits keys' e) := by
  have sees : View.whole.Sees e := by
    cases e <;> trivial
  have drawn (i : Nat) (_ : View.whole.pairs i) :
      SamePair hidden (keys i) (keys' (View.whole.pair i)) := by
    rw [View.pair_whole]
    exact pairs i
  have hrel := View.Shows.step limits h (View.covers_whole s) sees drawn
  rw [View.call_whole, Event.renumber_id] at hrel
  generalize s.step limits keys e = a, t.step limits keys' e = b at hrel ⊢
  cases hrel with
  | none => exact .none
  | some agrees =>
      obtain ⟨system, effects⟩ :=
        agrees (fun request _ => View.admits_whole s request) fun _ _ _ => trivial
      rw [View.call_whole] at effects
      exact .some ⟨system, effects⟩

end System.Alike

end HollowNode.Bootstrap
