import HollowNode.Proofs.Json.Schema

namespace HollowNode.Json

variable {σ : Type} {name other : String} {v w : Json} {fs gs patch : List (String × Json)}

def members : Json → List (String × Json)
  | .obj fs => fs
  | _ => []

/-- Gives a field a value, in its place if it is there and behind the others if not. -/
def put (name : String) (v : Json) : List (String × Json) → List (String × Json)
  | [] => [(name, v)]
  | (k, w) :: rest => if k = name then (k, v) :: rest else (k, w) :: put name v rest

def remove (name : String) (fs : List (String × Json)) : List (String × Json) :=
  fs.filter (·.1 ≠ name)

mutual

def merge (target : Json) : Json → Json
  | .obj patch => .obj (mergeFields target.members patch)
  | patch => patch

def mergeFields (fs : List (String × Json)) : List (String × Json) → List (String × Json)
  | [] => fs
  | (name, .null) :: patch => mergeFields (remove name fs) patch
  | (name, v) :: patch => mergeFields (put name (merge ((lookup name fs).getD .null) v) fs) patch

end

mutual

/-- A patch names no field of an object twice. -/
def Distinct : Json → Prop
  | .obj patch => (patch.map (·.1)).Nodup ∧ DistinctFields patch
  | _ => True

def DistinctFields : List (String × Json) → Prop
  | [] => True
  | (_, v) :: patch => Distinct v ∧ DistinctFields patch

end

theorem lookup_put_self (name : String) (v : Json) (fs : List (String × Json)) :
    lookup name (put name v fs) = some v := by
  induction fs with
  | nil => simp [put, lookup]
  | cons f fs ih =>
      obtain ⟨k, w⟩ := f
      by_cases h : k = name <;> simp [put, lookup, h, ih]

theorem lookup_put_of_ne (h : other ≠ name) (v : Json) (fs : List (String × Json)) :
    lookup other (put name v fs) = lookup other fs := by
  induction fs with
  | nil => simp [put, lookup, Ne.symm h]
  | cons f fs ih =>
      obtain ⟨k, w⟩ := f
      by_cases hk : k = name
      · subst hk
        simp [put, lookup, Ne.symm h]
      · simp [put, lookup, hk, ih]

theorem put_of_lookup (h : lookup name fs = some v) : put name v fs = fs := by
  induction fs with
  | nil => cases h
  | cons f fs ih =>
      obtain ⟨k, w⟩ := f
      by_cases hk : k = name
      · obtain rfl : w = v := by simpa [lookup, hk] using h
        simp [put, hk]
      · have later : lookup name fs = some v := by simpa [lookup, hk] using h
        simp [put, hk, ih later]

theorem lookup_remove_self (name : String) (fs : List (String × Json)) :
    lookup name (remove name fs) = none := by
  induction fs with
  | nil => rfl
  | cons f fs ih =>
      obtain ⟨k, w⟩ := f
      by_cases hk : k = name <;> simp_all [remove, lookup]

theorem lookup_remove_of_ne (h : other ≠ name) (fs : List (String × Json)) :
    lookup other (remove name fs) = lookup other fs := by
  induction fs with
  | nil => rfl
  | cons f fs ih =>
      obtain ⟨k, w⟩ := f
      by_cases hk : k = name
      · subst hk
        simp_all [remove, lookup, Ne.symm h]
      · by_cases ho : k = other <;> simp_all [remove, lookup]

theorem remove_of_lookup (h : lookup name fs = none) : remove name fs = fs := by
  induction fs with
  | nil => rfl
  | cons f fs ih =>
      obtain ⟨k, w⟩ := f
      by_cases hk : k = name
      · simp [lookup, hk] at h
      · have later : lookup name fs = none := by simpa [lookup, hk] using h
        rw [remove, List.filter_cons_of_pos (by simpa using hk)]
        exact congrArg _ (ih later)

theorem merge_obj (target : Json) (patch : List (String × Json)) :
    merge target (.obj patch) = .obj (mergeFields target.members patch) := by
  rw [merge]

theorem mergeFields_null (name : String) (fs patch : List (String × Json)) :
    mergeFields fs ((name, .null) :: patch) = mergeFields (remove name fs) patch := by
  rw [mergeFields]

theorem mergeFields_cons (h : v ≠ .null) (name : String) (fs patch : List (String × Json)) :
    mergeFields fs ((name, v) :: patch) =
      mergeFields (put name (merge ((lookup name fs).getD .null) v) fs) patch := by
  rw [mergeFields]
  exact h

theorem lookup_mergeFields (h : name ∉ patch.map (·.1)) (fs : List (String × Json)) :
    lookup name (mergeFields fs patch) = lookup name fs := by
  induction patch generalizing fs with
  | nil => rw [mergeFields]
  | cons f patch ih =>
      obtain ⟨k, v⟩ := f
      obtain ⟨ne, later⟩ : name ≠ k ∧ name ∉ patch.map (·.1) := by simpa using h
      by_cases hv : v = .null
      · subst hv
        rw [mergeFields_null, ih later, lookup_remove_of_ne ne]
      · rw [mergeFields_cons hv, ih later, lookup_put_of_ne ne]

mutual

theorem merge_merge (target patch : Json) (distinct : patch.Distinct) :
    merge (merge target patch) patch = merge target patch := by
  cases patch with
  | obj patch =>
      rw [Distinct] at distinct
      rw [merge_obj, merge_obj, members, mergeFields_mergeFields _ patch distinct.1 distinct.2]
  | _ => simp [merge]

theorem mergeFields_mergeFields (fs patch : List (String × Json))
    (distinct : (patch.map (·.1)).Nodup) (each : DistinctFields patch) :
    mergeFields (mergeFields fs patch) patch = mergeFields fs patch := by
  match patch, distinct, each with
  | [], _, _ => simp [mergeFields]
  | (name, v) :: patch, distinct, each =>
      rw [List.map_cons, List.nodup_cons] at distinct
      rw [DistinctFields] at each
      obtain ⟨fresh, distinct⟩ := distinct
      -- What the first field of the patch has done is still there when the others have been merged.
      by_cases hv : v = .null
      · subst hv
        have gone : lookup name (mergeFields (remove name fs) patch) = none := by
          rw [lookup_mergeFields fresh, lookup_remove_self]
        rw [mergeFields_null, mergeFields_null, remove_of_lookup gone]
        exact mergeFields_mergeFields _ patch distinct each.2
      · have there :
            lookup name (mergeFields (put name (merge ((lookup name fs).getD .null) v) fs) patch) =
            some (merge ((lookup name fs).getD .null) v) := by
          rw [lookup_mergeFields fresh, lookup_put_self]
        rw [mergeFields_cons hv, mergeFields_cons hv, there, Option.getD_some,
          merge_merge _ v each.1, put_of_lookup there]
        exact mergeFields_mergeFields _ patch distinct each.2

end

theorem lookup_eq_head? (name : String) (fs : List (String × Json)) :
    lookup name fs = (values name fs).head? := by
  induction fs with
  | nil => rfl
  | cons f fs ih =>
      obtain ⟨k, w⟩ := f
      rw [values_cons]
      by_cases hk : k = name <;> simp [lookup, hk, ih]

theorem values_put_self (single : (values name fs).length ≤ 1) :
    values name (put name v fs) = [v] := by
  induction fs with
  | nil => simp [put, values]
  | cons f fs ih =>
      obtain ⟨k, w⟩ := f
      rw [values_cons] at single
      by_cases hk : k = name
      · have none : values name fs = [] := by simpa [hk] using single
        simp [put, hk, values_cons, none]
      · rw [if_neg hk] at single
        simp [put, hk, values_cons, ih single]

theorem values_put_of_ne (h : other ≠ name) (v : Json) (fs : List (String × Json)) :
    values other (put name v fs) = values other fs := by
  induction fs with
  | nil => simp [put, values, Ne.symm h]
  | cons f fs ih =>
      obtain ⟨k, w⟩ := f
      by_cases hk : k = name
      · subst hk
        simp [put, values_cons, Ne.symm h]
      · simp [put, hk, values_cons, ih]

theorem Schema.read_put {S : Schema σ} {s s' : σ} {F : Field σ} (mem : F ∈ S.fields)
    (reads : S.read (.obj fs) = some s) (single : (values F.name fs).length ≤ 1)
    (new : F.read [v] = some (F.get s'))
    (others : ∀ G ∈ S.fields, G.name ≠ F.name → G.get s' = G.get s) :
    S.read (.obj (put F.name v fs)) = some s' := by
  rw [S.read_obj_iff] at reads ⊢
  intro G known
  by_cases same : G.name = F.name
  · obtain rfl : G = F := List.inj_on_of_nodup_map S.distinct known mem same
    rw [values_put_self single]
    exact new
  · rw [values_put_of_ne same, reads G known, others G known same]

theorem values_of_single {o : Option Json} (h : single name fs = some o) :
    values name fs = o.toList := by
  unfold single at h
  unfold values
  generalize fs.filter (·.1 = name) = named at h
  match named, h with
  | [], rfl => rfl
  | [_], rfl => rfl

theorem length_values_of_single {o : Option Json} (h : single name fs = some o) :
    (values name fs).length ≤ 1 := by
  rw [values_of_single h]
  cases o <;> simp

theorem lookup_of_single {o : Option Json} (h : single name fs = some o) : lookup name fs = o := by
  rw [lookup_eq_head?, values_of_single h]
  cases o <;> rfl

end HollowNode.Json
