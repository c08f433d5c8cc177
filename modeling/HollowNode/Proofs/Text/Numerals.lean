import HollowNode.Proofs.Text.Blank
import HollowNode.Text.Number
import Mathlib.Data.Nat.Digits.Defs

namespace HollowNode.Text

variable {cs ds : List Char} {c : Char} {limit n acc d : Nat}

def IsDigit (c : Char) : Prop := '0' ≤ c ∧ c ≤ '9'

def digitValue (c : Char) : Nat := c.toNat - '0'.toNat

def value (ds : List Char) : Nat := Nat.ofDigits 10 (ds.reverse.map digitValue)

/-- A text of blanks, perhaps a plus sign, the digits of a number, and blanks. -/
def Numeral (n : Nat) (cs : List Char) : Prop :=
  ∃ before sign ds after, cs = before ++ (sign ++ ds ++ after) ∧ Blank before ∧ Blank after ∧
    (sign = [] ∨ sign = ['+']) ∧ ds ≠ [] ∧ (∀ c ∈ ds, IsDigit c) ∧ value ds = n

theorem isBlank_of_isDigit (h : IsDigit c) : isBlank c = false := by
  obtain ⟨low, high⟩ := h
  rw [Char.le_def, UInt32.le_iff_toNat_le] at low high
  simp [isBlank, UInt32.le_iff_toNat_le, ← UInt32.toNat_inj] at low high ⊢
  omega

theorem ne_plus_of_isDigit (h : IsDigit c) : c ≠ '+' := by
  rintro rfl
  exact absurd h.1 (by decide)

theorem digit?_eq_some_iff : digit? c = some d ↔ IsDigit c ∧ d = digitValue c := by
  unfold digit?
  split
  next h =>
    exact ⟨fun same => ⟨h, (Option.some.inj same).symm⟩, fun digit => congrArg some digit.2.symm⟩
  next h => exact ⟨nofun, fun digit => absurd digit.1 h⟩

theorem value_cons (c : Char) (ds : List Char) :
    value (c :: ds) = digitValue c * 10 ^ ds.length + value ds := by
  rw [value, List.reverse_cons, List.map_append, Nat.ofDigits_append, List.length_map,
    List.length_reverse, List.map_singleton, Nat.ofDigits_singleton, Nat.mul_comm, Nat.add_comm]
  rfl

theorem decimalFrom_eq_some_iff :
    decimalFrom acc cs = some n ↔ (∀ c ∈ cs, IsDigit c) ∧ acc * 10 ^ cs.length + value cs = n := by
  induction cs generalizing acc with
  | nil => simp [decimalFrom, value]
  | cons c cs ih =>
      have shifted : (acc * 10 + digitValue c) * 10 ^ cs.length + value cs =
          acc * 10 ^ (c :: cs).length + value (c :: cs) := by
        rw [value_cons, List.length_cons, Nat.pow_succ', Nat.add_mul, Nat.mul_assoc, Nat.add_assoc]
      simp only [decimalFrom, Option.bind_eq_some_iff, digit?_eq_some_iff, ih, List.forall_mem_cons]
      constructor
      · rintro ⟨d, ⟨digit, rfl⟩, digits, same⟩
        exact ⟨⟨digit, digits⟩, shifted ▸ same⟩
      · rintro ⟨⟨digit, digits⟩, same⟩
        exact ⟨_, ⟨digit, rfl⟩, digits, shifted.trans same⟩

theorem decimal?_eq_some_iff :
    decimal? cs = some n ↔ cs ≠ [] ∧ (∀ c ∈ cs, IsDigit c) ∧ value cs = n := by
  cases cs with
  | nil => simp [decimal?]
  | cons c cs => simp [decimal?, decimalFrom_eq_some_iff]

theorem bounded?_eq_some_iff : bounded? limit cs = some n ↔
    ∃ sign ds, cs = sign ++ ds ∧ (sign = [] ∨ sign = ['+']) ∧ decimal? ds = some n ∧ n ≤ limit := by
  simp only [bounded?, Option.filter_eq_some_iff, decide_eq_true_eq]
  constructor
  · intro h
    split at h
    next ds => exact ⟨['+'], ds, rfl, .inr rfl, h⟩
    next => exact ⟨[], cs, rfl, .inl rfl, h⟩
  · rintro ⟨sign, ds, rfl, rfl | rfl, h⟩
    · obtain ⟨nonempty, digits, -⟩ := decimal?_eq_some_iff.1 h.1
      split
      next tail same =>
        have first : '+' ∈ ds := by
          rw [← List.nil_append ds, same]
          exact List.mem_cons_self
        exact absurd rfl (ne_plus_of_isDigit (digits _ first))
      next => exact h
    · exact h

theorem bounded?_trimmed : bounded? limit (trimmed cs) = some n ↔ Numeral n cs ∧ n ≤ limit := by
  rw [bounded?_eq_some_iff]
  constructor
  · rintro ⟨sign, ds, same, plus, read, small⟩
    obtain ⟨before, after, hbefore, hafter, padded⟩ := exists_trimmed cs
    rw [same] at padded
    exact ⟨⟨before, sign, ds, after, padded, hbefore, hafter, plus, decimal?_eq_some_iff.1 read⟩,
      small⟩
  · rintro ⟨⟨before, sign, ds, after, rfl, hbefore, hafter, plus, nonempty, digits, same⟩, small⟩
    have plain : ∀ c ∈ sign ++ ds, isBlank c = false := by
      refine List.forall_mem_append.2 ⟨?_, fun c hc => isBlank_of_isDigit (digits c hc)⟩
      rcases plus with rfl | rfl
      · exact nofun
      · intro c hc
        rw [List.mem_singleton.1 hc]
        rfl
    refine ⟨sign, ds, ?_, plus, decimal?_eq_some_iff.2 ⟨nonempty, digits, same⟩, small⟩
    exact trimmed_padded hbefore hafter (by simp [nonempty]) plain

end HollowNode.Text
