import HollowNode.Backoff
import Mathlib.Data.Nat.Fib.Basic

namespace HollowNode

namespace Backoff

variable {first cap : Nat}

theorem iterate_next (h : first ≤ cap) (k : Nat) : next^[k] (start first cap) =
    ⟨first, cap, min (Nat.fib k * first) cap, min (Nat.fib (k + 1) * first) cap⟩ := by
  induction k with
  | zero => simp [start, h]
  | succ k ih =>
      have hfib : Nat.fib (k + 2) * first = Nat.fib k * first + Nat.fib (k + 1) * first := by
        rw [Nat.fib_add_two, Nat.add_mul]
      have hsum (a b : Nat) : min (min a cap + min b cap) cap = min (a + b) cap := by omega
      rw [Function.iterate_succ_apply', ih, next, hsum, hfib]

theorem delay_iterate_next (h : first ≤ cap) (k : Nat) :
    (next^[k] (start first cap)).delay = 60 * min (Nat.fib (k + 1) * first) cap := by
  rw [iterate_next h, delay, Nat.mul_comm]

theorem delay_iterate_standard (k : Nat) :
    (next^[k] standard).delay = 60 * min (Nat.fib (k + 1)) 10 := by
  rw [standard, delay_iterate_next (by decide), Nat.mul_one]

end Backoff

namespace Backoffs

variable (b : Backoffs) (key k : String)

@[simp]
theorem get_fail : (b.fail key).get k = if k = key then (b.get key).next else b.get k := by
  by_cases h : k = key <;> simp [get, fail, h]

@[simp]
theorem get_reset : (b.reset key).get k = if k = key then .standard else b.get k := by
  by_cases h : k = key <;> simp [get, reset, h]

end Backoffs

end HollowNode
