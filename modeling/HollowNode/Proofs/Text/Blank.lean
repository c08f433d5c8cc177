import HollowNode.Text.Blank

namespace HollowNode.Text

variable {cs before after : List Char}

def Blank (cs : List Char) : Prop := ∀ c ∈ cs, isBlank c = true

theorem dropBlank_eq_self (h : ∀ c ∈ cs, isBlank c = false) : dropBlank cs = cs := by
  cases cs with
  | nil => rfl
  | cons c cs => simp [dropBlank, h c List.mem_cons_self]

theorem trimmed_eq_self (h : ∀ c ∈ cs, isBlank c = false) : trimmed cs = cs := by
  have hr : ∀ c ∈ cs.reverse, isBlank c = false := fun c hc => h c (List.mem_reverse.1 hc)
  rw [trimmed, dropBlank_eq_self h, dropBlank_eq_self hr, List.reverse_reverse]

theorem dropBlank_append (blank : Blank before) (cs : List Char) :
    dropBlank (before ++ cs) = dropBlank cs := by
  induction before with
  | nil => rfl
  | cons c before ih =>
      obtain ⟨first, others⟩ := List.forall_mem_cons.1 blank
      rw [← ih others]
      exact List.dropWhile_cons_of_pos first

theorem exists_dropBlank (cs : List Char) :
    ∃ before, Blank before ∧ cs = before ++ dropBlank cs := by
  refine ⟨cs.takeWhile isBlank, ?_, List.takeWhile_append_dropWhile.symm⟩
  exact List.all_eq_true.1 List.all_takeWhile

theorem exists_trimmed (cs : List Char) :
    ∃ before after, Blank before ∧ Blank after ∧ cs = before ++ (trimmed cs ++ after) := by
  obtain ⟨before, hbefore, front⟩ := exists_dropBlank cs
  obtain ⟨after, hafter, back⟩ := exists_dropBlank (dropBlank cs).reverse
  refine ⟨before, after.reverse, hbefore, fun c hc => hafter c (List.mem_reverse.1 hc), ?_⟩
  have rest : dropBlank cs = trimmed cs ++ after.reverse := by
    rw [trimmed, ← List.reverse_append, ← back, List.reverse_reverse]
  rwa [← rest]

theorem trimmed_eq_nil_iff : trimmed cs = [] ↔ Blank cs := by
  constructor
  · intro h
    obtain ⟨before, after, hbefore, hafter, same⟩ := exists_trimmed cs
    rw [h, List.nil_append] at same
    rw [same]
    exact List.forall_mem_append.2 ⟨hbefore, hafter⟩
  · intro blank
    have gone : dropBlank (cs ++ []) = dropBlank [] := dropBlank_append blank []
    rw [List.append_nil] at gone
    rw [trimmed, gone]
    rfl

theorem trimmed_padded (hbefore : Blank before) (hafter : Blank after) (nonempty : cs ≠ [])
    (plain : ∀ c ∈ cs, isBlank c = false) : trimmed (before ++ (cs ++ after)) = cs := by
  have front : dropBlank (cs ++ after) = cs ++ after := by
    cases cs with
    | nil => exact absurd rfl nonempty
    | cons c cs => exact List.dropWhile_cons_of_neg (by simp [plain c List.mem_cons_self])
  have back : Blank after.reverse := fun c hc => hafter c (List.mem_reverse.1 hc)
  have others : ∀ c ∈ cs.reverse, isBlank c = false := fun c hc => plain c (List.mem_reverse.1 hc)
  rw [trimmed, dropBlank_append hbefore, front, List.reverse_append, dropBlank_append back,
    dropBlank_eq_self others, List.reverse_reverse]

end HollowNode.Text
