import HollowNode.Flag
import HollowNode.Proofs.Except
import HollowNode.Proofs.Text.Pieces

namespace HollowNode.Flag

variable {α : Type} {flag s : String} {ps : List (List Char)}

/-- A text that has neither the separator of segments nor the one of their parts. -/
def Plain (text : String) : Prop := ',' ∉ text.toList ∧ '=' ∉ text.toList

instance (text : String) : Decidable (Plain text) := inferInstanceAs (Decidable (_ ∧ _))

/-- The empty text lists no segments. Any other text lists at least one, and has the flag, an equals
sign, and the segments with commas between them. -/
inductive Lists (flag : String) : String → List (List Char) → Prop
  | none : Lists flag "" []
  | some {s : String} {ps : List (List Char)} (any : ps ≠ []) (free : ∀ p ∈ ps, ',' ∉ p)
      (text : s.toList = flag.toList ++ '=' :: [','].intercalate ps) : Lists flag s ps

theorem Lists.free (h : Lists flag s ps) : ∀ p ∈ ps, ',' ∉ p := by
  cases h with
  | none => nofun
  | some _ free => exact free

theorem segments_eq_ok_iff : segments flag s = .ok ps ↔ Lists flag s ps := by
  by_cases hs : s = ""
  · subst hs
    have hnil : segments flag "" = .ok [] := rfl
    constructor
    · intro h
      cases hnil.symm.trans h
      exact .none
    · intro h
      cases h with
      | none => rfl
      | some _ _ text => simp at text
  · have hempty : s.isEmpty = false := by simpa [String.isEmpty_iff] using hs
    rw [segments, hempty]
    constructor
    · intro h
      cases hbody : Text.after (flag.toList ++ ['=']) s.toList with
      | none => simp [hbody] at h
      | some body =>
          obtain ⟨any, free, rfl⟩ := Text.pieces_eq_iff.1 (by simpa [hbody] using h)
          refine .some any free ?_
          rw [Text.after_eq_some_iff.1 hbody, Text.joined_eq_intercalate, List.append_assoc,
            List.singleton_append]
    · intro h
      cases h with
      | none => exact absurd rfl hs
      | some any free text =>
          have hbody : Text.after (flag.toList ++ ['=']) s.toList = some (Text.joined ',' ps) := by
            rw [Text.after_eq_some_iff, text, Text.joined_eq_intercalate, List.append_assoc,
              List.singleton_append]
          simp [hbody, Text.pieces_joined any free]

theorem lists_iff_render : Lists flag s ps ↔ (∀ p ∈ ps, ',' ∉ p) ∧ render flag ps = s := by
  constructor
  · intro h
    refine ⟨h.free, ?_⟩
    cases h with
    | none => rfl
    | some any free text =>
        rw [render, if_neg (by simpa using any), Text.joined_eq_intercalate, ← text,
          String.ofList_toList]
  · rintro ⟨free, rfl⟩
    by_cases any : ps = []
    · subst any
      exact .none
    · refine .some any free ?_
      rw [render, if_neg (by simpa using any), Text.joined_eq_intercalate, String.toList_ofList]

theorem lists_map_iff {write : α → List Char} {items : List α} (free : ∀ a ∈ items, ',' ∉ write a) :
    Lists flag s (items.map write) ↔ render flag (items.map write) = s := by
  rw [lists_iff_render]
  exact and_iff_right (by simpa using free)

theorem read_eq_ok_iff {read : List Char → Except Fault α} {write : α → List Char} {Fits : α → Prop}
    {items : List α} (inverse : ∀ p, ',' ∉ p → ∀ a, read p = .ok a ↔ Fits a ∧ p = write a) :
    (segments flag s >>= fun ps => ps.mapM read) = .ok items ↔
      (∀ a ∈ items, Fits a) ∧ Lists flag s (items.map write) := by
  simp only [bind_eq_ok_iff, segments_eq_ok_iff]
  constructor
  · rintro ⟨ps, lists, h⟩
    obtain ⟨fits, rfl⟩ := (mapM_eq_ok_iff fun p hp => inverse p (lists.free p hp)).1 h
    exact ⟨fits, lists⟩
  · rintro ⟨fits, lists⟩
    exact ⟨_, lists, (mapM_eq_ok_iff fun p hp => inverse p (lists.free p hp)).2 ⟨fits, rfl⟩⟩

theorem reads_iff {read : List Char → Except Fault α} :
    (∃ items, (segments flag s >>= fun ps => ps.mapM read) = .ok items) ↔
      ∃ ps, Lists flag s ps ∧ ∀ p ∈ ps, ∃ a, read p = .ok a := by
  simp only [bind_eq_ok_iff, segments_eq_ok_iff, ← mapM_ok_iff]
  exact ⟨fun ⟨items, ps, lists, h⟩ => ⟨ps, lists, items, h⟩,
    fun ⟨ps, lists, items, h⟩ => ⟨items, ps, lists, h⟩⟩

end HollowNode.Flag
