namespace HollowNode

/-- Keys ascend, so that two maps with the same entries are equal and are written alike. -/
structure Dict (α : Type) where
  entries : List (String × α)
  ascending : entries.Pairwise (fun a b => a.1 < b.1) := by simp

namespace Dict

variable {α : Type}

instance [DecidableEq α] : DecidableEq (Dict α) := fun m n =>
  if h : m.entries = n.entries then
    isTrue (by cases m; cases n; cases h; rfl)
  else
    isFalse (fun e => h (congrArg entries e))

instance [Repr α] : Repr (Dict α) := ⟨fun m p => reprPrec m.entries p⟩

def empty : Dict α := { entries := [] }

instance : EmptyCollection (Dict α) := ⟨empty⟩

instance : Inhabited (Dict α) := ⟨empty⟩

def isEmpty (m : Dict α) : Bool := m.entries.isEmpty

def keys (m : Dict α) : List String := m.entries.map (·.1)

def lookup (key : String) : List (String × α) → Option α
  | [] => none
  | (k, v) :: rest => if k = key then some v else lookup key rest

def get? (m : Dict α) (key : String) : Option α := lookup key m.entries

/-- Puts a pair into an ascending list, in place of the pair with the same key if there is one. -/
def place (key : String) (value : α) : List (String × α) → List (String × α)
  | [] => [(key, value)]
  | (k, v) :: rest =>
    if key < k then (key, value) :: (k, v) :: rest
    else if key = k then (key, value) :: rest
    else (k, v) :: place key value rest

theorem mem_place {key : String} {value : α} {l : List (String × α)} {p : String × α}
    (h : p ∈ place key value l) : p = (key, value) ∨ p ∈ l := by
  induction l with
  | nil => simpa [place] using h
  | cons q rest ih =>
    obtain ⟨k, v⟩ := q
    simp only [place] at h
    split at h
    · simpa using h
    · split at h
      · rcases List.mem_cons.1 h with h | h
        · exact .inl h
        · exact .inr (List.mem_cons_of_mem _ h)
      · rcases List.mem_cons.1 h with h | h
        · exact .inr (h ▸ List.mem_cons_self)
        · exact (ih h).imp_right (List.mem_cons_of_mem _)

theorem ascending_place {key : String} {value : α} {l : List (String × α)}
    (h : l.Pairwise (fun a b => a.1 < b.1)) :
    (place key value l).Pairwise (fun a b => a.1 < b.1) := by
  induction l with
  | nil => simp [place]
  | cons q rest ih =>
    obtain ⟨k, v⟩ := q
    obtain ⟨hk, hr⟩ := List.pairwise_cons.1 h
    simp only [place]
    split
    next hlt =>
      refine List.pairwise_cons.2 ⟨fun p hp => ?_, h⟩
      rcases List.mem_cons.1 hp with rfl | hp
      · exact hlt
      · exact String.lt_trans hlt (hk p hp)
    next hlt =>
      split
      next heq => exact List.pairwise_cons.2 ⟨fun p hp => heq ▸ hk p hp, hr⟩
      next hne =>
        refine List.pairwise_cons.2 ⟨fun p hp => ?_, ih hr⟩
        rcases mem_place hp with rfl | hp
        · rcases Std.lt_trichotomy key k with h' | h' | h'
          · exact absurd h' hlt
          · exact absurd h' hne
          · exact h'
        · exact hk p hp

def insert (m : Dict α) (key : String) (value : α) : Dict α :=
  ⟨place key value m.entries, ascending_place m.ascending⟩

def erase (m : Dict α) (key : String) : Dict α :=
  ⟨m.entries.filter (fun p => p.1 ≠ key), m.ascending.filter _⟩

theorem lookup_place (key k : String) (value : α) (l : List (String × α)) :
    lookup k (place key value l) = if k = key then some value else lookup k l := by
  induction l with
  | nil => simp [place, lookup, eq_comm]
  | cons q rest ih =>
    obtain ⟨k', v⟩ := q
    simp only [place]
    split
    · simp [lookup, eq_comm]
    · split
      next heq =>
        by_cases h : k = key
        · simp [lookup, h]
        · simp [lookup, ← heq, h, Ne.symm h]
      next hne =>
        by_cases h : k' = k
        · have hk : k ≠ key := fun he => hne (he ▸ h.symm)
          simp [lookup, h, hk]
        · simp [lookup, h, ih]

theorem lookup_eq_none {key : String} {l : List (String × α)} (h : ∀ p ∈ l, p.1 ≠ key) :
    lookup key l = none := by
  induction l with
  | nil => rfl
  | cons q rest ih =>
    obtain ⟨hq, hr⟩ := List.forall_mem_cons.1 h
    simp [lookup, hq, ih hr]

theorem lookup_filter {l : List (String × α)} (h : l.Pairwise (fun a b => a.1 < b.1))
    (keep : String × α → Bool) (key : String) :
    lookup key (l.filter keep) = (lookup key l).filter fun v => keep (key, v) := by
  induction l with
  | nil => rfl
  | cons q rest ih =>
    obtain ⟨k, v⟩ := q
    obtain ⟨hk, hr⟩ := List.pairwise_cons.1 h
    by_cases he : k = key
    · subst he
      have hrest : lookup k (rest.filter keep) = none :=
        lookup_eq_none fun p hp heq =>
          String.lt_irrefl k (heq ▸ hk p (List.mem_filter.1 hp).1)
      cases hv : keep (k, v) <;> simp [lookup, Option.filter, hv, hrest]
    · cases hv : keep (k, v) <;> simp [lookup, hv, he, ih hr]

@[simp]
theorem get?_insert (m : Dict α) (key k : String) (value : α) :
    (m.insert key value).get? k = if k = key then some value else m.get? k :=
  lookup_place key k value m.entries

theorem get?_filter (m : Dict α) (keep : String × α → Bool) (key : String) :
    get? ⟨m.entries.filter keep, m.ascending.filter _⟩ key = (m.get? key).filter fun v =>
      keep (key, v) :=
  lookup_filter m.ascending keep key

@[simp]
theorem get?_erase (m : Dict α) (key k : String) :
    (m.erase key).get? k = if k = key then none else m.get? k := by
  refine (m.get?_filter _ k).trans ?_
  by_cases h : k = key
  · cases hv : m.get? k <;> simp [Option.filter, h]
  · cases hv : m.get? k <;> simp [Option.filter, h]

@[simp]
theorem get?_empty (key : String) : ({} : Dict α).get? key = none := rfl

/-- Of two pairs with one key the later wins. -/
def ofList (pairs : List (String × α)) : Dict α :=
  pairs.foldl (fun m p => m.insert p.1 p.2) empty

end Dict

end HollowNode
