import HollowNode.Proofs.Flag.Segments

namespace HollowNode

theorem TaintEffect.ofName?_eq_some_iff {s : String} {e : TaintEffect} :
    TaintEffect.ofName? s = some e ↔ s = e.name := by
  constructor
  · intro h
    rw [TaintEffect.ofName?] at h
    repeat' split at h
    all_goals cases h
    all_goals assumption
  · rintro rfl
    exact TaintEffect.ofName?_name e

namespace Flag

variable {s : String} {seg : List Char} {t : Taint} {ts : List Taint} {e : TaintEffect}

/-- A taint that the flag can carry. -/
def PlainTaint (t : Taint) : Prop := t.key ≠ "" ∧ Plain t.key ∧ ∀ v ∈ t.value, Plain v

instance (t : Taint) : Decidable (PlainTaint t) :=
  inferInstanceAs (Decidable (_ ∧ _ ∧ ∀ v ∈ t.value, Plain v))

/-- A segment is a key, a value after an equals sign if there is one, and an effect after a colon.
There may be more colons in the key and the value. -/
inductive TaintText : List Char → Prop
  | bare {k : String} (any : k ≠ "") (plain : Plain k) (e : TaintEffect) : TaintText
      (k.toList ++ ':' :: e.name.toList)
  | valued {k v : String} (any : k ≠ "") (plain : Plain k) (plainValue : Plain v)
      (e : TaintEffect) :
      TaintText (k.toList ++ '=' :: v.toList ++ ':' :: e.name.toList)

theorem colon_not_mem_name (e : TaintEffect) : ':' ∉ e.name.toList := by cases e <;> decide

theorem comma_not_mem_name (e : TaintEffect) : ',' ∉ e.name.toList := by cases e <;> decide

theorem taintText_iff : TaintText seg ↔ ∃ t, PlainTaint t ∧ seg = taintSegment t := by
  constructor
  · intro h
    cases h with
    | @bare k any plain e => exact ⟨⟨k, none, e⟩, ⟨any, plain, nofun⟩, rfl⟩
    | @valued k v any plain plainValue e =>
        exact ⟨⟨k, some v, e⟩, ⟨any, plain, by simpa using plainValue⟩, rfl⟩
  · rintro ⟨⟨k, value, e⟩, ⟨any, plain, plainValue⟩, rfl⟩
    cases value with
    | none => exact .bare any plain e
    | some v => exact .valued any plain (plainValue v rfl) e

theorem comma_not_mem_taintSegment (plain : PlainTaint t) : ',' ∉ taintSegment t := by
  obtain ⟨k, value, e⟩ := t
  obtain ⟨_, ⟨hk, _⟩, hv⟩ := plain
  cases value with
  | none => simp [taintSegment, hk, comma_not_mem_name]
  | some v => simp [taintSegment, hk, (hv v rfl).1, comma_not_mem_name]

section Cuts

variable {body k v : List Char} (last : Text.cutLast ':' seg = some (body, e.name.toList))
include last

theorem decodeTaint_of_bare (first : Text.cutFirst '=' body = none) :
    decodeTaint seg =
      if body = [] then .error (.taint (String.ofList seg) .emptyKey)
      else .ok ⟨String.ofList body, none, e⟩ := by
  simp [decodeTaint, last, first, pure, Except.pure]

theorem decodeTaint_of_valued (first : Text.cutFirst '=' body = some (k, v)) :
    decodeTaint seg =
      if '=' ∈ v then .error (.taint (String.ofList seg) (.equalsSigns (String.ofList k)))
      else if k = [] then .error (.taint (String.ofList seg) .emptyKey)
      else .ok ⟨String.ofList k, some (String.ofList v), e⟩ := by
  simp [decodeTaint, last, first, pure, Except.pure]

end Cuts

theorem decodeTaint_taintSegment (plain : PlainTaint t) : decodeTaint (taintSegment t) = .ok t := by
  obtain ⟨k, value, e⟩ := t
  obtain ⟨any, ⟨_, hk⟩, hv⟩ : k ≠ "" ∧ Plain k ∧ ∀ v ∈ value, Plain v := plain
  cases value with
  | none =>
      have last : Text.cutLast ':' (taintSegment ⟨k, none, e⟩) = some (k.toList, e.name.toList) :=
        Text.cutLast_append (colon_not_mem_name e) k.toList
      rw [decodeTaint_of_bare last (Text.cutFirst_eq_none_iff.2 hk), if_neg (by simpa using any),
        String.ofList_toList]
  | some v =>
      have last : Text.cutLast ':' (taintSegment ⟨k, some v, e⟩) =
          some (k.toList ++ '=' :: v.toList, e.name.toList) :=
        Text.cutLast_append (colon_not_mem_name e) (k.toList ++ '=' :: v.toList)
      rw [decodeTaint_of_valued last (Text.cutFirst_append hk v.toList), if_neg (hv v rfl).2,
        if_neg (by simpa using any), String.ofList_toList, String.ofList_toList]

theorem taint_of_decodeTaint (free : ',' ∉ seg) (h : decodeTaint seg = .ok t) :
    PlainTaint t ∧ seg = taintSegment t := by
  cases last : Text.cutLast ':' seg with
  | none => simp [decodeTaint, last] at h
  | some cut =>
      obtain ⟨body, name⟩ := cut
      -- What is after the last colon must name an effect, and the key and the value are before it.
      cases he : TaintEffect.ofName? (String.ofList name) with
      | none => simp [decodeTaint, last, he] at h
      | some e =>
          obtain rfl : name = e.name.toList := by
            rw [← TaintEffect.ofName?_eq_some_iff.1 he, String.toList_ofList]
          obtain ⟨_, hseg⟩ := Text.cutLast_eq_some_iff.1 last
          have hbody : ',' ∉ body := fun hm => free (hseg ▸ List.mem_append_left _ hm)
          cases first : Text.cutFirst '=' body with
          | none =>
              have hkey : '=' ∉ body := Text.cutFirst_eq_none_iff.1 first
              rw [decodeTaint_of_bare last first] at h
              split at h
              next => cases h
              next any =>
                cases h
                simp [PlainTaint, Plain, taintSegment, hseg, any, hkey, hbody]
          | some cut =>
              obtain ⟨k, v⟩ := cut
              obtain ⟨hkey, rfl⟩ := Text.cutFirst_eq_some_iff.1 first
              obtain ⟨hk, hv⟩ : ',' ∉ k ∧ ',' ∉ v := by simpa using hbody
              rw [decodeTaint_of_valued last first] at h
              split at h
              next => cases h
              next hvalue =>
                split at h
                next => cases h
                next any =>
                  cases h
                  simp [PlainTaint, Plain, taintSegment, hseg, any, hkey, hvalue, hk, hv]

theorem decodeTaint_eq_ok_iff (free : ',' ∉ seg) (t : Taint) :
    decodeTaint seg = .ok t ↔ PlainTaint t ∧ seg = taintSegment t :=
  ⟨taint_of_decodeTaint free, fun ⟨plain, hseg⟩ => hseg ▸ decodeTaint_taintSegment plain⟩

theorem decodeTaints_eq_ok_iff :
    decodeTaints s = .ok ts ↔ (∀ t ∈ ts, PlainTaint t) ∧ encodeTaints ts = s := by
  have hread : decodeTaints s = .ok ts ↔
      (∀ t ∈ ts, PlainTaint t) ∧ Lists registerWithTaints s (ts.map taintSegment) :=
    read_eq_ok_iff fun seg free => decodeTaint_eq_ok_iff free
  rw [hread]
  exact and_congr_right fun plain => lists_map_iff fun t ht =>
    comma_not_mem_taintSegment (plain t ht)

theorem decodeTaints_ok_iff :
    (∃ ts, decodeTaints s = .ok ts) ↔ ∃ segs, Lists registerWithTaints s segs ∧ ∀ seg ∈ segs,
      TaintText seg := by
  rw [show (∃ ts, decodeTaints s = .ok ts) ↔ _ from reads_iff]
  refine exists_congr fun segs => and_congr_right fun lists => forall₂_congr fun seg hseg => ?_
  simp only [decodeTaint_eq_ok_iff (lists.free seg hseg), taintText_iff]

/-- The accepted texts are those of the grammar, and each is the text that is written for the taints
it is read as. Every list of taints that the flag can carry is read back as it was. -/
theorem taint_codec :
    (∀ s, (∃ ts, decodeTaints s = .ok ts) ↔
      ∃ segs, Lists registerWithTaints s segs ∧ ∀ seg ∈ segs, TaintText seg) ∧
    (∀ s ts, decodeTaints s = .ok ts → encodeTaints ts = s) ∧
    ∀ ts, (∀ t ∈ ts, PlainTaint t) → decodeTaints (encodeTaints ts) = .ok ts :=
  ⟨fun _ => decodeTaints_ok_iff, fun _ _ h => (decodeTaints_eq_ok_iff.1 h).2,
    fun _ plain => decodeTaints_eq_ok_iff.2 ⟨plain, rfl⟩⟩

theorem repeated_taint_kept :
    decodeTaints
      (encodeTaints [⟨"a:b", some "", .noSchedule⟩, ⟨"a:b", none, .noExecute⟩,
      ⟨"a:b", none, .noExecute⟩]) = .ok [⟨"a:b", some "", .noSchedule⟩, ⟨"a:b", none, .noExecute⟩,
      ⟨"a:b", none, .noExecute⟩] ∧
    encodeTaints [⟨"a:b", some "", .noSchedule⟩, ⟨"a:b", none, .noExecute⟩,
      ⟨"a:b", none, .noExecute⟩] =
      "--register-with-taints=a:b=:NoSchedule,a:b:NoExecute,a:b:NoExecute" := by
  have decoded : decodeTaints "--register-with-taints=a:b=:NoSchedule,a:b:NoExecute,a:b:NoExecute" =
      .ok [⟨"a:b", some "", .noSchedule⟩, ⟨"a:b", none, .noExecute⟩,
        ⟨"a:b", none, .noExecute⟩] := by rfl
  exact ⟨taint_codec.2.2 _ (by decide), taint_codec.2.1 _ _ decoded⟩

end Flag

end HollowNode
