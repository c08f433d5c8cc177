import HollowNode.Proofs.Backoff
import Mathlib.Data.List.Induction
import Mathlib.Data.List.DropRight

namespace HollowNode.Backoff

variable {first cap : Nat} {b : Backoff}

def answer (b : Backoff) : Call → Option Nat
  | .next => some b.delay
  | .reset => none

def after (b : Backoff) : Call → Backoff
  | .next => b.next
  | .reset => b.reset

/-- How many delays were asked for since the last reset, or in all where there is none. -/
def sinceReset (calls : List Call) : Nat := (calls.rtakeWhile (· = .next)).length

structure Bounded (b : Backoff) : Prop where
  first : b.first ≤ b.cap
  previous : b.previous ≤ b.cap
  current : b.current ≤ b.cap

theorem bounded_start (h : first ≤ cap) : (start first cap).Bounded := ⟨h, Nat.zero_le cap, h⟩

theorem Bounded.after (h : b.Bounded) (call : Call) : (b.after call).Bounded := by
  cases call with
  | next => exact ⟨h.first, h.current, Nat.min_le_right ..⟩
  | reset => exact bounded_start h.first

theorem cap_after (b : Backoff) (call : Call) : (b.after call).cap = b.cap := by
  cases call <;> rfl

theorem word?_eq_some_iff {n word : Nat} : word? n = some word ↔ n < 2 ^ 64 ∧ n = word := by
  rw [word?, Option.filter_eq_some_iff, Option.some_inj, decide_eq_true_iff, Nat.pow_eq]
  constructor
  · rintro ⟨rfl, small⟩
    exact ⟨small, rfl⟩
  · rintro ⟨small, rfl⟩
    exact ⟨rfl, small⟩

theorem Bounded.call?_eq (h : b.Bounded) (fits : 60 * b.cap < 2 ^ 64) (call : Call) :
    b.call? call = some (b.answer call, b.after call) := by
  cases call with
  | next =>
      have := h.current
      have delay : b.current * 60 < 2 ^ 64 := by omega
      -- before it is capped the sum is at most twice the cap
      have sum : b.previous + b.current < 2 ^ 64 := by
        have := h.previous
        omega
      rw [call?, word?_eq_some_iff.2 ⟨delay, rfl⟩, word?_eq_some_iff.2 ⟨sum, rfl⟩]
      rfl
  | reset => rfl

theorem Bounded.answers?_eq (h : b.Bounded) (fits : 60 * b.cap < 2 ^ 64) (calls : List Call) :
    ∃ answers, b.answers? calls = some answers ∧
      ∀ i, answers[i]? = calls[i]?.map ((calls.take i).foldl Backoff.after b).answer := by
  -- each call is answered from what the calls before it left
  induction calls generalizing b with
  | nil => exact ⟨[], rfl, fun i => rfl⟩
  | cons call calls ih =>
      obtain ⟨answers, computed, each⟩ := ih (h.after call) (by rwa [cap_after])
      refine ⟨b.answer call :: answers, ?_, fun i => ?_⟩
      · simp only [answers?, h.call?_eq fits, Option.bind_eq_bind, Option.bind_some, computed]
        rfl
      · cases i with
        | zero => rfl
        | succ i => exact each i

@[simp]
theorem sinceReset_next (calls : List Call) :
    sinceReset (calls ++ [.next]) = sinceReset calls + 1 := by
  simp [sinceReset]

@[simp]
theorem sinceReset_reset (calls : List Call) : sinceReset (calls ++ [.reset]) = 0 := by
  simp [sinceReset]

theorem sinceReset_take_le {calls : List Call} {i j : Nat} (hij : i ≤ j)
    (unbroken : ∀ k, i ≤ k → k < j → calls[k]? ≠ some .reset) :
    sinceReset (calls.take i) ≤ sinceReset (calls.take j) := by
  induction j, hij using Nat.le_induction with
  | base => exact Nat.le_refl _
  | succ j hij ih =>
      refine (ih fun k hk hkj => unbroken k hk (Nat.lt_succ_of_lt hkj)).trans ?_
      have := unbroken j hij (Nat.lt_succ_self j)
      rw [List.take_add_one]
      cases hcall : calls[j]? with
      | none => simp
      | some call =>
          cases call with
          | next => simp
          | reset => exact absurd hcall this

theorem reset_iterate_next (b : Backoff) (n : Nat) : (next^[n] b).reset = b.reset := by
  induction n generalizing b with
  | zero => rfl
  | succ n ih => exact ih b.next

theorem foldl_after (calls : List Call) :
    calls.foldl after (start first cap) = next^[sinceReset calls] (start first cap) := by
  induction calls using List.reverseRecOn with
  | nil => rfl
  | append_singleton calls call ih =>
      rw [List.foldl_concat, ih]
      cases call with
      | next => rw [sinceReset_next, Function.iterate_succ_apply', after]
      | reset =>
          rw [sinceReset_reset, after, reset_iterate_next]
          rfl

theorem answer_foldl_after (h : first ≤ cap) (calls : List Call) :
    (calls.foldl after (start first cap)).answer .next =
      some (60 * min (Nat.fib (sinceReset (calls ++ [.next])) * first) cap) := by
  rw [foldl_after, answer, delay_iterate_next h, sinceReset_next]

/-- Whatever is called, no number on the way is too large for 64 bits, and the delay with number `n`
since the last reset is `Nat.fib n` times the first one up to the cap. So delays do not decrease
until the next reset and do not exceed the cap. -/
theorem delays_closed (h : first ≤ cap) (fits : 60 * cap < 2 ^ 64) (calls : List Call) :
    ∃ answers, (start first cap).answers? calls = some answers ∧
      (∀ i, answers[i]? = calls[i]?.map fun
        | Call.next => some (60 * min (Nat.fib (sinceReset (calls.take (i + 1))) * first) cap)
        | Call.reset => none) ∧
      (∀ i j delay later : Nat, i ≤ j → (∀ k, i < k → k < j → calls[k]? ≠ some .reset) →
        answers[i]? = some (some delay) → answers[j]? = some (some later) → delay ≤ later) ∧
      ∀ delay, some delay ∈ answers → delay ≤ 60 * cap := by
  obtain ⟨answers, computed, each⟩ := (bounded_start h).answers?_eq fits calls
  have closed (i : Nat) : answers[i]? = calls[i]?.map fun
      | Call.next => some (60 * min (Nat.fib (sinceReset (calls.take (i + 1))) * first) cap)
      | Call.reset => none := by
    rw [each]
    cases hcall : calls[i]? with
    | none => rfl
    | some call =>
        cases call with
        | next =>
            have upto : calls.take (i + 1) = calls.take i ++ [.next] := by
              rw [List.take_add_one, hcall]
              rfl
            rw [Option.map_some, answer_foldl_after h, Option.map_some, upto]
        | reset => rfl
  have number (i delay : Nat) (answered : answers[i]? = some (some delay)) :
      calls[i]? = some .next ∧
      delay = 60 * min (Nat.fib (sinceReset (calls.take (i + 1))) * first) cap := by
    rw [closed] at answered
    obtain ⟨call, hcall, hanswer⟩ := Option.map_eq_some_iff.1 answered
    cases call with
    | next => exact ⟨hcall, (Option.some.inj hanswer).symm⟩
    | reset => cases hanswer
  refine ⟨answers, computed, closed, fun i j delay later hij unbroken hi hj => ?_,
    fun delay among => ?_⟩
  · obtain ⟨-, rfl⟩ := number i delay hi
    obtain ⟨last, rfl⟩ := number j later hj
    have numbers : sinceReset (calls.take (i + 1)) ≤ sinceReset (calls.take (j + 1)) := by
      refine sinceReset_take_le (Nat.succ_le_succ hij) fun k hk hkj => ?_
      obtain hkj | rfl := Nat.lt_succ_iff_lt_or_eq.1 hkj
      · exact unbroken k hk hkj
      · simp [last]
    gcongr
  · obtain ⟨i, hi⟩ := List.mem_iff_getElem?.1 among
    obtain ⟨-, rfl⟩ := number i delay hi
    exact Nat.mul_le_mul_left 60 (Nat.min_le_right ..)

/-- With the largest cap that fits, the fifth delay is capped, and a reset starts the sequence
over. -/
def cappedCalls : List Call := [.next, .next, .next, .next, .next, .reset, .next]

theorem cappedCalls_closed :
    100000000000000000 ≤ 307445734561825860 ∧ 60 * 307445734561825860 < 2 ^ 64 ∧
    ∃ answers, (start 100000000000000000 307445734561825860).answers? cappedCalls = some answers ∧
      answers[3]? = some (some 18000000000000000000) ∧
      answers[4]? = some (some 18446744073709551600) ∧ answers[5]? = some none ∧
      answers[6]? = some (some 6000000000000000000) ∧
      ∀ delay, some delay ∈ answers → delay ≤ 18446744073709551600 := by
  have ordered : 100000000000000000 ≤ 307445734561825860 := by decide
  have fits : 60 * 307445734561825860 < 2 ^ 64 := by decide
  obtain ⟨answers, computed, closed, -, capped⟩ := delays_closed ordered fits cappedCalls
  exact ⟨ordered, fits, answers, computed, closed 3, closed 4, closed 5, closed 6, capped⟩

end HollowNode.Backoff
