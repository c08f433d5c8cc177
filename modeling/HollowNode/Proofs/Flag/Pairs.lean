import HollowNode.Proofs.Dict
import HollowNode.Proofs.Flag.Segments

namespace HollowNode.Flag

variable {flag s t : String} {seg : List Char} {p : String × String} {m : Dict String}

/-- A text lists the pairs under a flag, each as its key, an equals sign and its value. -/
structure Spells (flag s : String) (pairs : List (String × String)) : Prop where
  plain : ∀ p ∈ pairs, Plain p.1 ∧ Plain p.2
  lists : Lists flag s (pairs.map fun p => p.1.toList ++ '=' :: p.2.toList)

/-- The second text spells the keys of the first once each and in ascending order, with the value
that the first has last for the key. -/
def SortedForm (flag s t : String) : Prop :=
  ∃ pairs sorted, Spells flag s pairs ∧ Spells flag t sorted ∧
    sorted.Pairwise (fun p q => p.1 < q.1) ∧ ∀ k, Dict.last? sorted k = Dict.last? pairs k

/-- A mapping that a flag can carry. -/
def PlainDict (m : Dict String) : Prop := ∀ p ∈ m.entries, Plain p.1 ∧ Plain p.2

instance (m : Dict String) : Decidable (PlainDict m) :=
  inferInstanceAs (Decidable (∀ p ∈ m.entries, Plain p.1 ∧ Plain p.2))

theorem decodePair_ok_iff (flag : String) (seg : List Char) :
    (∃ p, decodePair flag seg = .ok p) ↔ seg.count '=' = 1 := by
  rw [Text.count_eq_one_iff]
  simp only [← Text.pieces_eq_pair_iff]
  constructor
  · rintro ⟨p, h⟩
    rw [decodePair] at h
    split at h
    next key value hpieces => exact ⟨key, value, hpieces⟩
    next => cases h
  · rintro ⟨key, value, hpieces⟩
    exact ⟨(String.ofList key, String.ofList value), by rw [decodePair, hpieces]⟩

theorem decodePair_eq_ok_iff (flag : String) (free : ',' ∉ seg) (p : String × String) :
    decodePair flag seg = .ok p ↔ (Plain p.1 ∧ Plain p.2) ∧ seg = pairSegment p := by
  constructor
  · intro h
    rw [decodePair] at h
    split at h
    next key value hpieces =>
      obtain ⟨hkey, hvalue, rfl⟩ := Text.pieces_eq_pair_iff.1 hpieces
      obtain ⟨hbefore, hafter⟩ : ',' ∉ key ∧ ',' ∉ value := by simpa using free
      cases h
      simpa [Plain, pairSegment] using ⟨⟨hbefore, hkey⟩, hafter, hvalue⟩
    next => cases h
  · rintro ⟨⟨⟨_, hkey⟩, _, hvalue⟩, rfl⟩
    have hpieces : Text.pieces '=' (pairSegment p) = [p.1.toList, p.2.toList] :=
      Text.pieces_eq_pair_iff.2 ⟨hkey, hvalue, rfl⟩
    simp [decodePair, hpieces]

theorem comma_not_mem_pairSegment (plain : Plain p.1 ∧ Plain p.2) : ',' ∉ pairSegment p := by
  simp [pairSegment, plain.1.1, plain.2.1]

theorem decode_eq_bind :
    decode flag s =
      (segments flag s >>= fun segs => segs.mapM (decodePair flag)) >>= fun pairs =>
        pure (Dict.ofList pairs) :=
  (bind_assoc ..).symm

theorem decode_ok_iff :
    (∃ m, decode flag s = .ok m) ↔ ∃ segs, Lists flag s segs ∧ ∀ seg ∈ segs, seg.count '=' = 1 := by
  simp only [← decodePair_ok_iff flag, ← reads_iff, decode_eq_bind,
    bind_eq_ok_iff (f := fun _ => pure _)]
  exact ⟨fun ⟨_, pairs, h, _⟩ => ⟨pairs, h⟩, fun ⟨pairs, h⟩ => ⟨Dict.ofList pairs, pairs, h, rfl⟩⟩

theorem decode_eq_ok_iff :
    decode flag s = .ok m ↔ ∃ pairs, Spells flag s pairs ∧ Dict.ofList pairs = m := by
  rw [decode_eq_bind, bind_eq_ok_iff]
  simp only [read_eq_ok_iff fun seg free => decodePair_eq_ok_iff flag free]
  constructor
  · rintro ⟨pairs, ⟨plain, lists⟩, ⟨⟩⟩
    exact ⟨pairs, ⟨plain, lists⟩, rfl⟩
  · rintro ⟨pairs, ⟨plain, lists⟩, rfl⟩
    exact ⟨pairs, ⟨plain, lists⟩, rfl⟩

theorem get?_of_decode (h : decode flag s = .ok m) :
    ∃ pairs, Spells flag s pairs ∧ ∀ k, m.get? k = Dict.last? pairs k := by
  obtain ⟨pairs, spells, rfl⟩ := decode_eq_ok_iff.1 h
  exact ⟨pairs, spells, Dict.get?_ofList pairs⟩

theorem plainDict_of_decode (h : decode flag s = .ok m) : PlainDict m := by
  obtain ⟨pairs, spells, rfl⟩ := decode_eq_ok_iff.1 h
  exact fun p hp => spells.plain p (Dict.mem_of_mem_ofList hp)

theorem spells_encodePairs (plain : PlainDict m) : Spells flag (encodePairs flag m) m.entries :=
  ⟨plain, (lists_map_iff fun p hp => comma_not_mem_pairSegment (plain p hp)).2 rfl⟩

theorem decode_encodePairs (plain : PlainDict m) : decode flag (encodePairs flag m) = .ok m :=
  decode_eq_ok_iff.2 ⟨m.entries, spells_encodePairs plain, m.ofList_entries⟩

theorem sortedForm_iff :
    SortedForm flag s t ↔ ∃ m, decode flag s = .ok m ∧ encodePairs flag m = t := by
  constructor
  · rintro ⟨pairs, sorted, spells, spelled, ascending, same⟩
    have hm : Dict.ofList pairs = ⟨sorted, ascending⟩ :=
      Dict.ext fun k =>
        (Dict.get?_ofList pairs k).trans ((same k).symm.trans (Dict.last?_eq_lookup ascending k))
    exact ⟨_, decode_eq_ok_iff.2 ⟨pairs, spells, hm⟩, (lists_iff_render.1 spelled.lists).2⟩
  · rintro ⟨m, h, rfl⟩
    have spelled : Spells flag (encodePairs flag m) m.entries :=
      spells_encodePairs (plainDict_of_decode h)
    obtain ⟨pairs, spells, rfl⟩ := decode_eq_ok_iff.1 h
    refine ⟨pairs, _, spells, spelled, (Dict.ofList pairs).ascending, fun k => ?_⟩
    exact (Dict.last?_eq_lookup (Dict.ofList pairs).ascending k).trans (Dict.get?_ofList pairs k)

/-- Every mapping that a flag can carry is read back from its flag, every accepted text is read as
the mapping with the last value of each key, and it can be replaced by the sorted text that is
written for this mapping. -/
theorem mapping_codec :
    (∀ flag s, (∃ m, decode flag s = .ok m) ↔
      ∃ segs, Lists flag s segs ∧ ∀ seg ∈ segs, seg.count '=' = 1) ∧
    (∀ flag s m, decode flag s = .ok m →
      PlainDict m ∧ ∃ pairs, Spells flag s pairs ∧ ∀ k, m.get? k = Dict.last? pairs k) ∧
    (∀ m, PlainDict m →
      decode extendedResources (encodeResources m) = .ok m ∧
      decode nodeLabels (encodeLabels m) = .ok m) ∧
    (∀ s m, decode extendedResources s = .ok m →
      SortedForm extendedResources s (encodeResources m) ∧
      decode extendedResources (encodeResources m) = .ok m) ∧
    ∀ s m, decode nodeLabels s = .ok m →
      SortedForm nodeLabels s (encodeLabels m) ∧ decode nodeLabels (encodeLabels m) = .ok m := by
  refine ⟨fun flag s => decode_ok_iff, fun flag s m h => ⟨plainDict_of_decode h, get?_of_decode h⟩,
    fun m plain => ⟨decode_encodePairs plain, decode_encodePairs plain⟩, fun s m h => ?_,
      fun s m h => ?_⟩
  · exact ⟨sortedForm_iff.2 ⟨m, h, rfl⟩, decode_encodePairs (plainDict_of_decode h)⟩
  · exact ⟨sortedForm_iff.2 ⟨m, h, rfl⟩, decode_encodePairs (plainDict_of_decode h)⟩

theorem repeated_label_sorted :
    (∃ segs, Lists nodeLabels "--node-labels=b=1,a=,b=2" segs ∧ ∀ seg ∈ segs, seg.count '=' = 1) ∧
    (∃ pairs, Spells nodeLabels "--node-labels=b=1,a=,b=2" pairs ∧
      Dict.last? pairs "b" = some "2") ∧
    SortedForm nodeLabels "--node-labels=b=1,a=,b=2" "--node-labels=a=,b=2" ∧
    SortedForm extendedResources "--extended-resources=b=1,a=,b=2" "--extended-resources=a=,b=2" ∧
    decode nodeLabels "--node-labels=a=,b=2" = .ok (Dict.ofList [("a", ""), ("b", "2")]) := by
  have labels : decode nodeLabels "--node-labels=b=1,a=,b=2" =
    .ok (Dict.ofList [("a", ""), ("b", "2")]) := by rfl
  have resources : decode extendedResources "--extended-resources=b=1,a=,b=2" =
      .ok (Dict.ofList [("a", ""), ("b", "2")]) := by rfl
  have plain : PlainDict (Dict.ofList [("a", ""), ("b", "2")]) := by decide
  obtain ⟨accepted, read, carried, sortedResources, sortedLabels⟩ := mapping_codec
  obtain ⟨pairs, spells, last⟩ := (read _ _ _ labels).2
  exact ⟨(accepted ..).1 ⟨_, labels⟩, ⟨pairs, spells, (last "b").symm⟩, (sortedLabels _ _ labels).1,
    (sortedResources _ _ resources).1, (carried _ plain).2⟩

end HollowNode.Flag
