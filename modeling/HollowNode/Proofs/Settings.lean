import HollowNode.Proofs.Except
import HollowNode.Settings

namespace HollowNode.Settings

variable {lookup : String → Option String} {settings : Settings}
  {defaults limits : Bootstrap.Limits}

theorem limits_of_limitsOf (h : limitsOf lookup defaults = .ok limits) :
    0 < limits.pollInterval ∧ limits.timeout ≤ limits.sessionTtl := by
  simp only [limitsOf, bind_eq_ok_iff] at h
  obtain ⟨interval, _, timeout, _, window, _, ttl, _, h⟩ := h
  split at h
  next => cases h
  next positive =>
    split at h
    next => cases h
    next long =>
      cases h
      exact ⟨Nat.pos_of_ne_zero positive, Nat.le_of_not_lt long⟩

theorem limits_of_ofLookup (h : ofLookup lookup = .ok settings) :
    0 < settings.limits.pollInterval ∧ settings.limits.timeout ≤ settings.limits.sessionTtl := by
  simp only [ofLookup, bind_eq_ok_iff] at h
  obtain ⟨limits, hlimits, concurrency, _, address, _, client, _, requeue, _, h⟩ := h
  cases h
  exact limits_of_limitsOf hlimits

end HollowNode.Settings
