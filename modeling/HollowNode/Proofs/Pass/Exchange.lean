import HollowNode.Pass.Program

namespace HollowNode.Pass

structure Exchange where
  query : Query
  answer : query.Answer

def Query.isBootstrap : Query → Bool
  | bootstrap _ => true
  | _ => false

namespace Program

variable {α β : Type} {allows allows' : List Exchange → Query → Prop}
  {returns returns' : List Exchange → α → Prop} {p p' : Program α} {h t : List Exchange}

/-- What is left of a program after some exchanges. -/
inductive Reaches (p : Program α) : List Exchange → Program α → Prop
  | start : Reaches p [] p
  | answer {h : List Exchange} {q : Query} {next : q.Answer → Program α}
      (before : Reaches p h (.ask q next)) (answer : q.Answer) : Reaches p
      (h ++ [⟨q, answer⟩]) (next answer)

/-- A program with answers to the first of its questions, and the exchanges until then. -/
def follow (answer : (q : Query) → q.Answer) : Nat → Program α → List Exchange × Program α
  | n + 1, ask q next => ((next (answer q)).follow answer n).map (⟨q, answer q⟩ :: ·) id
  | _, p => ([], p)

theorem reaches_follow (answer : (q : Query) → q.Answer) (n : Nat) (reached : p.Reaches h p') :
    p.Reaches (h ++ (p'.follow answer n).1) (p'.follow answer n).2 := by
  induction n generalizing h p' with
  | zero => simpa [follow] using reached
  | succ n ih =>
      cases p' with
      | done a => simpa [follow] using reached
      | ask q next => simpa [follow] using ih (reached.answer (answer q))

theorem answer_of_mem_follow {answer : (q : Query) → q.Answer} {n : Nat} {x : Exchange}
    (hx : x ∈ (p.follow answer n).1) : x.answer = answer x.query := by
  induction n generalizing p with
  | zero => simp [follow] at hx
  | succ n ih =>
      cases p with
      | done a => simp [follow] at hx
      | ask q next =>
          rcases List.mem_cons.1 hx with rfl | hx
          · rfl
          · exact ih hx

/-- After some exchanges a program asks only what is allowed then, and in the end returns only what
is. -/
def Meets (allows : List Exchange → Query → Prop) (returns : List Exchange → α → Prop) :
    Program α → List Exchange → Prop
  | done a, h => returns h a
  | ask q next, h => allows h q ∧ ∀ answer, (next answer).Meets allows returns (h ++ [⟨q, answer⟩])

theorem meets_bind {returns : List Exchange → β → Prop} (p : Program α) (f : α → Program β)
    (h : List Exchange) :
    (p.bind f).Meets allows returns h ↔
    p.Meets allows (fun h a => (f a).Meets allows returns h) h := by
  induction p generalizing h with
  | done a => rfl
  | ask q next ih => exact and_congr_right fun _ => forall_congr' fun answer => ih answer _

theorem meets_congr (same : ∀ h a, returns h a ↔ returns' h a) :
    p.Meets allows returns h ↔ p.Meets allows returns' h := by
  have heq : returns = returns' := by
    funext h a
    exact propext (same h a)
  rw [heq]

theorem Meets.imp {P : List Exchange → Prop} (m : p.Meets allows returns h)
    (keeps : ∀ h x, allows h x.query → P h → P (h ++ [x]))
    (asks : ∀ h q, allows h q → P h → allows' h q) (ends : ∀ h a, returns h a → P h → returns' h a)
    (first : P h) : p.Meets allows' returns' h := by
  induction p generalizing h with
  | done a => exact ends h a m first
  | ask q next ih =>
      obtain ⟨allowed, m⟩ := m
      exact ⟨asks h q allowed first,
        fun answer => ih answer (m answer) (keeps h ⟨q, answer⟩ allowed first)⟩

theorem Meets.mono (m : p.Meets allows returns h) (asks : ∀ h q, allows h q → allows' h q)
    (ends : ∀ h a, returns h a → returns' h a) : p.Meets allows' returns' h :=
  m.imp (P := fun _ => True) (fun _ _ _ _ => trivial) (fun h q hq _ => asks h q hq)
    (fun h a ha _ => ends h a ha) trivial

theorem Meets.reaches (m : p.Meets allows returns h) (reached : p.Reaches t p') :
    p'.Meets allows returns (h ++ t) ∧ ∀ l x r, t = l ++ x :: r → allows (h ++ l) x.query := by
  induction reached with
  | start => exact ⟨by simpa using m, by simp⟩
  | @answer t q next before answer ih =>
      obtain ⟨⟨allowed, m⟩, earlier⟩ := ih
      refine ⟨by simpa using m answer, fun l x r hsplit => ?_⟩
      rcases List.append_eq_append_iff.1 hsplit with ⟨m', rfl, hm'⟩ | ⟨m', rfl, hm'⟩
      · cases m' with
        | nil =>
            simp only [List.nil_append, List.cons.injEq] at hm'
            rw [← hm'.1]
            simpa using allowed
        | cons y ys => simp at hm'
      · cases m' with
        | nil =>
            simp only [List.nil_append, List.cons.injEq] at hm'
            rw [hm'.1]
            simpa using allowed
        | cons y ys =>
            obtain ⟨rfl, _⟩ := List.cons.inj hm'
            exact earlier l x ys rfl

end Program

namespace Step

variable {α β : Type} {allows allows' : List Exchange → Query → Prop}
  {goesOn goesOn' : List Exchange → α → Prop} {ends ends' : List Exchange → Result → Prop}
  {h : List Exchange}

/-- After some exchanges a part of a pass asks only what is allowed then, and it goes on or ends the
pass only where it may. -/
def Meets (allows : List Exchange → Query → Prop) (goesOn : List Exchange → α → Prop)
    (ends : List Exchange → Result → Prop) (s : Step α) (h : List Exchange) : Prop :=
  Program.Meets allows (fun h => Except.rec (ends h) (goesOn h)) s.run h

@[simp]
theorem meets_pure (a : α) : (pure a : Step α).Meets allows goesOn ends h ↔ goesOn h a := Iff.rfl

@[simp]
theorem meets_ask (q : Query) {goesOn : List Exchange → q.Answer → Prop} :
    Meets allows goesOn ends (liftM (Pass.ask q)) h ↔
    allows h q ∧ ∀ answer, goesOn (h ++ [⟨q, answer⟩]) answer :=
  Iff.rfl

@[simp]
theorem meets_finish (outcome : Outcome) :
    (finish outcome : Step α).Meets allows goesOn ends h ↔ ends h (.ok outcome) :=
  Iff.rfl

@[simp]
theorem meets_defer (reason : String) :
    (defer reason : Step α).Meets allows goesOn ends h ↔ ends h (.ok (.deferred reason)) := Iff.rfl

@[simp]
theorem meets_fail (f : Failure) :
    (fail f : Step α).Meets allows goesOn ends h ↔ ends h (.error f) := Iff.rfl

@[simp]
theorem meets_orFail (e : Except Failure α) :
    (orFail e).Meets allows goesOn ends h ↔
    Except.rec (fun f => ends h (.error f)) (goesOn h) e := by
  cases e <;> rfl

@[simp]
theorem meets_bind {goesOn : List Exchange → β → Prop} (s : Step α) (f : α → Step β) :
    (s >>= f).Meets allows goesOn ends h ↔
    s.Meets allows (fun h a => (f a).Meets allows goesOn ends h) ends h := by
  refine (Program.meets_bind _ _ h).trans (Program.meets_congr fun h r => ?_)
  cases r <;> exact Iff.rfl

theorem meets_toProgram {returns : List Exchange → Result → Prop} (s : Step Outcome) :
    s.toProgram.Meets allows returns h ↔
    s.Meets allows (fun h outcome => returns h (.ok outcome)) returns h := by
  refine (Program.meets_bind _ _ h).trans (Program.meets_congr fun h r => ?_)
  cases r <;> exact Iff.rfl

theorem Meets.imp {P : List Exchange → Prop} {s : Step α} (m : s.Meets allows goesOn ends h)
    (keeps : ∀ h x, allows h x.query → P h → P (h ++ [x]))
    (asks : ∀ h q, allows h q → P h → allows' h q) (goes : ∀ h a, goesOn h a → P h → goesOn' h a)
    (stops : ∀ h r, ends h r → P h → ends' h r) (first : P h) :
    s.Meets allows' goesOn' ends' h := by
  refine Program.Meets.imp m keeps asks (fun h r hr hp => ?_) first
  cases r with
  | ok a => exact goes h a hr hp
  | error result => exact stops h result hr hp

theorem Meets.mono {s : Step α} (m : s.Meets allows goesOn ends h)
    (asks : ∀ h q, allows h q → allows' h q) (goes : ∀ h a, goesOn h a → goesOn' h a)
    (stops : ∀ h r, ends h r → ends' h r) : s.Meets allows' goesOn' ends' h := by
  refine Program.Meets.mono m asks fun h r hr => ?_
  cases r with
  | ok a => exact goes h a hr
  | error result => exact stops h result hr

theorem Meets.bind {goesOn' : List Exchange → β → Prop} {s : Step α} {f : α → Step β}
    (m : s.Meets allows goesOn ends h)
    (next : ∀ t a, goesOn t a → (f a).Meets allows goesOn' ends t) :
    (s >>= f).Meets allows goesOn' ends h :=
  (meets_bind s f).2 (m.mono (fun _ _ hq => hq) next fun _ _ hr => hr)

end Step

end HollowNode.Pass
