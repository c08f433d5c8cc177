import HollowNode.Dict

namespace HollowNode.Dict

variable {α : Type} {m n : Dict α} {l pairs : List (String × α)} {k : String} {v : α}

def last? (pairs : List (String × α)) (key : String) : Option α :=
  ((pairs.filter (·.1 = key)).getLast?).map (·.2)

theorem last?_nil (k : String) : last? ([] : List (String × α)) k = none := rfl

theorem last?_cons (p : String × α) (pairs : List (String × α)) (k : String) :
    last? (p :: pairs) k = (last? pairs k).or (if p.1 = k then some p.2 else none) := by
  by_cases h : p.1 = k
  · cases hl : (pairs.filter (·.1 = k)).getLast? <;> simp [last?, List.getLast?_cons, h, hl]
  · simp [last?, h]

theorem mem_of_last?_eq_some (h : last? pairs k = some v) : (k, v) ∈ pairs := by
  obtain ⟨⟨k', v'⟩, hlast, rfl⟩ := Option.map_eq_some_iff.1 h
  obtain ⟨hmem, hkey⟩ := List.mem_filter.1 (List.mem_of_getLast? hlast)
  obtain rfl : k' = k := of_decide_eq_true hkey
  exact hmem

theorem lookup_eq_some_iff (ascending : l.Pairwise fun a b => a.1 < b.1) :
    lookup k l = some v ↔ (k, v) ∈ l := by
  induction l with
  | nil => simp [lookup]
  | cons p l ih =>
      obtain ⟨k', v'⟩ := p
      obtain ⟨hlt, hl⟩ := List.pairwise_cons.1 ascending
      by_cases h : k' = k
      · subst h
        have hnew : (k', v) ∉ l := fun hm => String.lt_irrefl k' (hlt _ hm)
        simp [lookup, hnew, eq_comm]
      · simp [lookup, h, ih hl, Ne.symm h]

theorem get?_eq_some_iff : m.get? k = some v ↔ (k, v) ∈ m.entries := lookup_eq_some_iff m.ascending

theorem nodup_entries (m : Dict α) : m.entries.Nodup :=
  m.ascending.imp fun {a b} (hlt : a.1 < b.1) (heq : a = b) => String.lt_irrefl b.1 (heq ▸ hlt)

theorem ext (h : ∀ k, m.get? k = n.get? k) : m = n := by
  have hperm : m.entries.Perm n.entries := by
    refine (List.perm_ext_iff_of_nodup m.nodup_entries n.nodup_entries).2 fun ⟨k, v⟩ => ?_
    rw [← get?_eq_some_iff, ← get?_eq_some_iff, h]
  have heq : m.entries = n.entries :=
    hperm.eq_of_pairwise (fun _ _ _ _ hab hba => absurd hba (String.lt_asymm hab))
      m.ascending n.ascending
  cases m
  cases n
  cases heq
  rfl

theorem eq_empty_iff : m = {} ↔ m.entries = [] := by
  constructor
  · rintro rfl
    rfl
  · intro h
    cases m
    cases h
    rfl

theorem get?_foldl_insert (pairs : List (String × α)) (m : Dict α) (k : String) :
    (pairs.foldl (fun m p => m.insert p.1 p.2) m).get? k = (last? pairs k).or (m.get? k) := by
  induction pairs generalizing m with
  | nil => simp [last?_nil]
  | cons p pairs ih =>
      rw [List.foldl_cons, ih, last?_cons, get?_insert]
      by_cases h : p.1 = k
      · simp [h]
      · simp [h, Ne.symm h]

theorem get?_ofList (pairs : List (String × α)) (k : String) :
    (ofList pairs).get? k = last? pairs k := by
  have hempty : (empty : Dict α).get? k = none := rfl
  rw [ofList, get?_foldl_insert, hempty, Option.or_none]

theorem last?_eq_lookup (ascending : l.Pairwise fun a b => a.1 < b.1) (k : String) :
    last? l k = lookup k l := by
  induction l with
  | nil => rfl
  | cons p l ih =>
      obtain ⟨hlt, hl⟩ := List.pairwise_cons.1 ascending
      rw [last?_cons, ih hl]
      by_cases h : p.1 = k
      · subst h
        have hnew : lookup p.1 l = none := lookup_eq_none fun q hq heq =>
          String.lt_irrefl p.1 (heq ▸ hlt q hq)
        simp [lookup, hnew]
      · simp [lookup, h]

@[simp]
theorem ofList_entries (m : Dict α) : ofList m.entries = m :=
  ext fun k => (get?_ofList m.entries k).trans (last?_eq_lookup m.ascending k)

theorem mem_of_mem_ofList {p : String × α} (h : p ∈ (ofList pairs).entries) : p ∈ pairs := by
  have hget : (ofList pairs).get? p.1 = some p.2 := get?_eq_some_iff.2 h
  rw [get?_ofList] at hget
  exact mem_of_last?_eq_some hget

end HollowNode.Dict
