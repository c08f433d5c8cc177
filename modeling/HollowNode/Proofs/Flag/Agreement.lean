import HollowNode.Failure
import HollowNode.Proofs.Flag.Pairs
import HollowNode.Proofs.Flag.Taints

namespace HollowNode.Flag

variable {flag s : String} {t : Taint} {ts : List Taint}

def pairValue (t : Taint) : Option String := t.value.map fun v => v ++ ":" ++ t.effect.name

theorem plain_name (e : TaintEffect) : Plain e.name := by cases e <;> decide

theorem Plain.append {a b : String} (ha : Plain a) (hb : Plain b) : Plain (a ++ b) := by
  simp [Plain, ha.1, ha.2, hb.1, hb.2]

theorem plain_pairValue {v : String} (plain : PlainTaint t) (h : pairValue t = some v) :
    Plain v := by
  obtain ⟨value, hvalue, rfl⟩ := Option.map_eq_some_iff.1 h
  exact ((plain.2.2 value hvalue).append (by decide)).append (plain_name t.effect)

theorem taintSegment_of_pair {v : String} (h : pairValue t = some v) :
    taintSegment t = pairSegment (t.key, v) := by
  obtain ⟨value, hvalue, rfl⟩ := Option.map_eq_some_iff.1 h
  simp [taintSegment, pairSegment, hvalue]

theorem decodePair_of_pair {v : String} (plain : PlainTaint t) (h : pairValue t = some v) :
    decodePair flag (taintSegment t) = .ok (t.key, v) := by
  refine (decodePair_eq_ok_iff flag (comma_not_mem_taintSegment plain) _).2
    ⟨⟨plain.2.1, plain_pairValue plain h⟩, ?_⟩
  exact taintSegment_of_pair h

theorem decodePair_of_bare (plain : PlainTaint t) (bare : t.value = none) :
    decodePair flag (taintSegment t) = .error (.notPair flag (String.ofList (taintSegment t))) := by
  have free : '=' ∉ taintSegment t := by
    simp [taintSegment, bare, plain.2.1.2, (plain_name t.effect).2]
  have hpieces : Text.pieces '=' (taintSegment t) = [taintSegment t] :=
    Text.pieces_eq_iff.2 ⟨by simp, by simpa using free, rfl⟩
  simp [decodePair, hpieces]

theorem lists_of_decodeTaints (h : decodeTaints s = .ok ts) :
    (∀ t ∈ ts, PlainTaint t) ∧ Lists registerWithTaints s (ts.map taintSegment) := by
  obtain ⟨plain, written⟩ := decodeTaints_eq_ok_iff.1 h
  exact ⟨plain, (lists_map_iff fun t ht => comma_not_mem_taintSegment (plain t ht)).2 written⟩

theorem exists_pairValue (h : t.value ≠ none) : ∃ v, pairValue t = some v := by
  obtain ⟨v, hv⟩ := Option.ne_none_iff_exists'.1 h
  exact ⟨_, by rw [pairValue, hv]; rfl⟩

def pairs (ts : List Taint) : List (String × String) :=
  ts.map fun t => (t.key, (pairValue t).getD "")

theorem spells_pairs (h : decodeTaints s = .ok ts) (valued : ∀ t ∈ ts, t.value ≠ none) :
    Spells registerWithTaints s (pairs ts) := by
  obtain ⟨plain, lists⟩ := lists_of_decodeTaints h
  refine ⟨?_, ?_⟩
  · intro p hp
    obtain ⟨t, ht, rfl⟩ := List.mem_map.1 hp
    obtain ⟨v, hv⟩ := exists_pairValue (valued t ht)
    rw [hv]
    exact ⟨(plain t ht).2.1, plain_pairValue (plain t ht) hv⟩
  · have same : ts.map taintSegment = (pairs ts).map pairSegment := by
      rw [pairs, List.map_map]
      refine List.map_congr_left fun t ht => ?_
      obtain ⟨v, hv⟩ := exists_pairValue (valued t ht)
      rw [taintSegment_of_pair hv, Function.comp_apply, hv]
      rfl
    rw [same] at lists
    exact lists

theorem last?_pairs (valued : ∀ t ∈ ts, t.value ≠ none) (key : String) :
    Dict.last? (pairs ts) key = (ts.filter (·.key = key)).getLast?.bind pairValue := by
  have hlast : Dict.last? (pairs ts) key = (ts.filter (·.key = key)).getLast?.map fun t =>
      (pairValue t).getD "" := by
    simp [Dict.last?, pairs, List.filter_map, Function.comp_def]
  rw [hlast]
  cases h : (ts.filter (·.key = key)).getLast? with
  | none => rfl
  | some t =>
      obtain ⟨v, hv⟩ := exists_pairValue (valued t (List.mem_filter.1 (List.mem_of_getLast? h)).1)
      simp [hv]

theorem decode_of_bare (h : decodeTaints s = .ok ts) (first : ts.find? (·.value.isNone) = some t) :
    decode registerWithTaints s =
      .error (.notPair registerWithTaints (String.ofList (taintSegment t))) := by
  obtain ⟨plain, lists⟩ := lists_of_decodeTaints h
  obtain ⟨bare, before, after, rfl, valued⟩ := List.find?_eq_some_iff_append.1 first
  have refused : ((before ++ t :: after).map taintSegment).mapM (decodePair registerWithTaints) =
      .error (.notPair registerWithTaints (String.ofList (taintSegment t))) := by
    rw [List.map_append, List.map_cons]
    refine mapM_eq_error_of_first (fun seg hseg => ?_)
      (decodePair_of_bare (plain t (by simp)) (by simpa using bare))
    obtain ⟨t', ht', rfl⟩ := List.mem_map.1 hseg
    obtain ⟨v, hv⟩ :=
      exists_pairValue (t := t') (by simpa [Option.isSome_iff_ne_none] using valued t' ht')
    exact ⟨_, decodePair_of_pair (plain t' (by simp [ht'])) hv⟩
  rw [decode_eq_bind]
  exact bind_eq_error_iff.2
    (.inl (bind_eq_error_iff.2 (.inr ⟨_, segments_eq_ok_iff.2 lists, refused⟩)))

/-- For every text that is read as taints: it is read as a mapping if and only if every taint has a
value, and then each key has the value and the effect of the last taint with this key. Otherwise the
first taint without a value is refused, being no pair. -/
theorem taints_agree (s : String) (ts : List Taint) (h : decodeTaints s = .ok ts) :
    ((∃ m, decode registerWithTaints s = .ok m) ↔ ∀ t ∈ ts, t.value ≠ none) ∧
    (∀ m, decode registerWithTaints s = .ok m →
      ∀ key, m.get? key = (ts.filter (·.key = key)).getLast?.bind pairValue) ∧
    ∀ t, ts.find? (·.value.isNone) = some t → ∃ fault, decode registerWithTaints s = .error fault ∧
      fault = .notPair registerWithTaints (String.ofList (taintSegment t)) ∧
      (Failure.flag fault).kind = "malformed_flag" := by
  have accepted : (∃ m, decode registerWithTaints s = .ok m) ↔ ∀ t ∈ ts, t.value ≠ none := by
    constructor
    · rintro ⟨m, hm⟩ t ht bare
      cases first : ts.find? (·.value.isNone) with
      | none => simpa [bare] using List.find?_eq_none.1 first t ht
      | some t' => cases hm.symm.trans (decode_of_bare h first)
    · exact fun valued => ⟨_, decode_eq_ok_iff.2 ⟨_, spells_pairs h valued, rfl⟩⟩
  refine ⟨accepted, fun m hm key => ?_, fun t first => ⟨_, decode_of_bare h first, rfl, rfl⟩⟩
  have valued := accepted.1 ⟨m, hm⟩
  have hpairs : decode registerWithTaints s = .ok (Dict.ofList (pairs ts)) :=
    decode_eq_ok_iff.2 ⟨_, spells_pairs h valued, rfl⟩
  cases hm.symm.trans hpairs
  rw [Dict.get?_ofList, last?_pairs valued]

theorem repeated_taint_agrees :
    (∃ m, decode registerWithTaints
      "--register-with-taints=a:b=c:d:NoSchedule,e=:NoExecute,a:b=:NoExecute" = .ok m ∧
      m.get? "a:b" = some ":NoExecute") ∧
    decode registerWithTaints "--register-with-taints=a=b:NoSchedule,a:NoSchedule" =
      .error (.notPair registerWithTaints "a:NoSchedule") := by
  have valued :
      decodeTaints "--register-with-taints=a:b=c:d:NoSchedule,e=:NoExecute,a:b=:NoExecute" =
      .ok [⟨"a:b", some "c:d", .noSchedule⟩, ⟨"e", some "", .noExecute⟩,
      ⟨"a:b", some "", .noExecute⟩] := by rfl
  have bare : decodeTaints "--register-with-taints=a=b:NoSchedule,a:NoSchedule" =
      .ok [⟨"a", some "b", .noSchedule⟩, ⟨"a", none, .noSchedule⟩] := by rfl
  obtain ⟨accepted, read, -⟩ := taints_agree _ _ valued
  obtain ⟨m, hm⟩ := accepted.2 (by decide)
  obtain ⟨-, -, refused⟩ := taints_agree _ _ bare
  obtain ⟨fault, hfault, rfl, -⟩ := refused ⟨"a", none, .noSchedule⟩ rfl
  exact ⟨⟨m, hm, read m hm "a:b"⟩, hfault⟩

end HollowNode.Flag
