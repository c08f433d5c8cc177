import HollowNode.Text.Pieces

namespace HollowNode.Text

variable {sep : Char} {cs a b : List Char} {ps : List (List Char)}

theorem pieces_eq_splitOn (sep : Char) (cs : List Char) : pieces sep cs = cs.splitOn sep := by
  induction cs with
  | nil => simp [pieces]
  | cons c cs ih =>
      cases hp : pieces sep cs with
      | nil => exact absurd hp (pieces_ne_nil sep cs)
      | cons p ps =>
          rw [hp] at ih
          rw [pieces, hp, List.splitOn, List.splitOnP_cons_eq_if_modifyHead, ← List.splitOn, ← ih]
          by_cases h : c = sep <;> simp [h]

theorem joined_eq_intercalate (sep : Char) (ps : List (List Char)) :
    joined sep ps = [sep].intercalate ps := by
  induction ps with
  | nil => rfl
  | cons p ps ih =>
      cases ps with
      | nil => simp [joined]
      | cons q qs =>
          have hcons : joined sep (p :: q :: qs) = p ++ sep :: joined sep (q :: qs) := rfl
          rw [hcons, ih, List.intercalate_cons_cons, List.append_assoc, List.singleton_append]

theorem joined_pieces (sep : Char) (cs : List Char) : joined sep (pieces sep cs) = cs := by
  rw [pieces_eq_splitOn, joined_eq_intercalate, List.intercalate_splitOn]

theorem pieces_joined (hne : ps ≠ []) (free : ∀ p ∈ ps, sep ∉ p) :
    pieces sep (joined sep ps) = ps := by
  rw [pieces_eq_splitOn, joined_eq_intercalate, List.splitOn_intercalate sep free hne]

theorem not_mem_of_mem_pieces (h : a ∈ pieces sep cs) : sep ∉ a := by
  induction cs generalizing a with
  | nil =>
      obtain rfl : a = [] := by simpa [pieces] using h
      exact List.not_mem_nil
  | cons c cs ih =>
      cases hp : pieces sep cs with
      | nil => exact absurd hp (pieces_ne_nil sep cs)
      | cons p ps =>
          rw [hp] at ih
          rw [pieces, hp] at h
          dsimp only at h
          split at h
          next hc =>
            rcases List.mem_cons.1 h with rfl | h
            · exact List.not_mem_nil
            · exact ih h
          next hc =>
            rcases List.mem_cons.1 h with rfl | h
            · exact fun hm =>
                (List.mem_cons.1 hm).elim (fun heq => hc heq.symm) (ih List.mem_cons_self)
            · exact ih (List.mem_cons_of_mem p h)

theorem pieces_eq_iff :
    pieces sep cs = ps ↔ ps ≠ [] ∧ (∀ p ∈ ps, sep ∉ p) ∧ cs = joined sep ps := by
  constructor
  · rintro rfl
    exact ⟨pieces_ne_nil sep cs, fun p hp => not_mem_of_mem_pieces hp, (joined_pieces sep cs).symm⟩
  · rintro ⟨hne, free, rfl⟩
    exact pieces_joined hne free

theorem pieces_eq_pair_iff : pieces sep cs = [a, b] ↔ sep ∉ a ∧ sep ∉ b ∧ cs = a ++ sep :: b := by
  simp [pieces_eq_iff, joined, and_assoc]

theorem count_eq_one_iff : cs.count sep = 1 ↔ ∃ a b, sep ∉ a ∧ sep ∉ b ∧ cs = a ++ sep :: b := by
  constructor
  · intro h
    have hm : sep ∈ cs := List.count_pos_iff.1 (by omega)
    obtain ⟨a, b, rfl, ha⟩ := List.eq_append_cons_of_mem hm
    have hb : b.count sep = 0 := by simpa [List.count_eq_zero_of_not_mem ha] using h
    exact ⟨a, b, ha, List.count_eq_zero.1 hb, rfl⟩
  · rintro ⟨a, b, ha, hb, rfl⟩
    simp [List.count_eq_zero_of_not_mem ha, List.count_eq_zero_of_not_mem hb]

theorem cutFirst_eq_none_iff : cutFirst sep cs = none ↔ sep ∉ cs := by
  induction cs with
  | nil => simp [cutFirst]
  | cons c cs ih =>
      by_cases h : c = sep
      · simp [cutFirst, h]
      · simp [cutFirst, h, ih, Ne.symm h]

theorem cutFirst_append (ha : sep ∉ a) (b : List Char) :
    cutFirst sep (a ++ sep :: b) = some (a, b) := by
  induction a with
  | nil => simp [cutFirst]
  | cons c a ih =>
      obtain ⟨hc, ha⟩ : sep ≠ c ∧ sep ∉ a := by simpa using ha
      simp [cutFirst, Ne.symm hc, ih ha]

theorem cutFirst_eq_some_iff : cutFirst sep cs = some (a, b) ↔ sep ∉ a ∧ cs = a ++ sep :: b := by
  constructor
  · intro h
    have hm : sep ∈ cs := Decidable.byContradiction fun hm => by
      rw [cutFirst_eq_none_iff.2 hm] at h
      cases h
    obtain ⟨a', b', rfl, ha⟩ := List.eq_append_cons_of_mem hm
    rw [cutFirst_append ha] at h
    cases h
    exact ⟨ha, rfl⟩
  · rintro ⟨ha, rfl⟩
    exact cutFirst_append ha b

theorem cutLast_eq_none_iff : cutLast sep cs = none ↔ sep ∉ cs := by
  induction cs with
  | nil => simp [cutLast]
  | cons c cs ih =>
      cases hcut : cutLast sep cs with
      | none =>
          by_cases h : c = sep
          · simp [cutLast, hcut, h]
          · simp [cutLast, hcut, h, ih.1 hcut, Ne.symm h]
      | some cut =>
          have hm : sep ∈ cs := Decidable.byContradiction fun hm => by
            cases hcut.symm.trans (ih.2 hm)
          simp [cutLast, hcut, hm]

theorem cutLast_append (hb : sep ∉ b) (a : List Char) :
    cutLast sep (a ++ sep :: b) = some (a, b) := by
  induction a with
  | nil => simp [cutLast, cutLast_eq_none_iff.2 hb]
  | cons c a ih => simp [cutLast, ih]

theorem cutLast_eq_some_iff : cutLast sep cs = some (a, b) ↔ sep ∉ b ∧ cs = a ++ sep :: b := by
  constructor
  · intro h
    have hm : sep ∈ cs.reverse := List.mem_reverse.2 <| Decidable.byContradiction fun hm => by
      rw [cutLast_eq_none_iff.2 hm] at h
      cases h
    -- The last separator is the first one from behind.
    obtain ⟨b', a', hrev, hb⟩ := List.eq_append_cons_of_mem hm
    obtain rfl : cs = a'.reverse ++ sep :: b'.reverse := by simpa using congrArg List.reverse hrev
    rw [cutLast_append (by simpa using hb)] at h
    cases h
    exact ⟨by simpa using hb, rfl⟩
  · rintro ⟨hb, rfl⟩
    exact cutLast_append hb a

theorem after_eq_some_iff {beginning rest : List Char} :
    after beginning cs = some rest ↔ cs = beginning ++ rest := by
  induction beginning generalizing cs with
  | nil => simp [after, eq_comm]
  | cons p ps ih =>
      cases cs with
      | nil => simp [after]
      | cons c cs =>
          by_cases h : p = c
          · simp [after, h, ih]
          · simp [after, h, Ne.symm h]

end HollowNode.Text
