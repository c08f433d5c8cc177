import HollowNode.Metrics
import HollowNode.Proofs.Dict
import Mathlib

namespace HollowNode

namespace Metrics

variable {m : Dict Nat} {label l : String}

def count (m : Dict Nat) (label : String) : Nat := (m.get? label).getD 0

def sum (m : Dict Nat) : Nat := (m.entries.map (·.2)).sum

def observed (m : Metrics) (result : String) : Nat := ((m.bootstraps.get? result).getD []).length

theorem count_increment :
    count (increment m label) l = if l = label then count m l + 1 else count m l := by
  by_cases h : l = label <;> simp [count, increment, h]

theorem sum_place {entries : List (String × Nat)}
    (ascending : entries.Pairwise fun a b => a.1 < b.1) (key : String) (value : Nat) :
    ((Dict.place key value entries).map (·.2)).sum + (Dict.lookup key entries).getD 0 =
      (entries.map (·.2)).sum + value := by
  induction entries with
  | nil => simp [Dict.place, Dict.lookup]
  | cons p entries ih =>
      obtain ⟨k, v⟩ := p
      obtain ⟨hlt, hrest⟩ := List.pairwise_cons.1 ascending
      simp only [Dict.place]
      split
      next before =>
        have hnew : Dict.lookup key ((k, v) :: entries) = none := by
          refine Dict.lookup_eq_none fun q hq (same : q.1 = key) => ?_
          have greater : key < q.1 := by
            rcases List.mem_cons.1 hq with rfl | hq
            · exact before
            · exact String.lt_trans before (hlt q hq)
          rw [same] at greater
          exact String.lt_irrefl key greater
        simp [hnew, Nat.add_comm]
      next =>
        split
        next same => simp [Dict.lookup, same]; omega
        next other =>
          have ih := ih hrest
          simp only [List.map_cons, List.sum_cons, Dict.lookup, if_neg (Ne.symm other)]
          omega

theorem sum_increment : sum (increment m label) = sum m + 1 := by
  have h := sum_place m.ascending label (count m label + 1)
  have hlookup : (Dict.lookup label m.entries).getD 0 = count m label := rfl
  have hincrement : (Dict.place label (count m label + 1) m.entries).map (·.2) =
    (increment m label).entries.map (·.2) := rfl
  rw [hlookup, hincrement] at h
  unfold sum
  omega

theorem observed_observe (m : Metrics) (label l : String) (microseconds : Nat) :
    (m.observe label microseconds).observed l = if l = label then m.observed l + 1
      else m.observed l := by
  by_cases h : l = label <;> simp [observed, observe, h]

end Metrics

end HollowNode
