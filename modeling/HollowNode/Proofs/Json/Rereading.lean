import HollowNode.Json.Reader
import HollowNode.Proofs.Json.Lexing
import Mathlib.Data.List.Forall2

namespace HollowNode.Json

open Token

variable {ts us : List Token} {t : Token} {v w : Json} {frames done : List Frame} {p p' : Progress}

namespace Progress

/-- A state of reading a value, while the arrays and objects are open in which the value stands. -/
def within (frames : List Frame) (p : Progress) : Option Progress :=
  match p.want with
  | .nothing v => deliver v frames
  | want => some ⟨want, p.frames ++ frames⟩

theorem deliver_within (h : deliver v done = some p) (frames : List Frame) :
    deliver v (done ++ frames) = p.within frames := by
  rcases done with _ | ⟨_ | _ | _, done⟩ <;> cases h <;> rfl

theorem beginValue_within (h : beginValue t done = some p) (frames : List Frame) :
    beginValue t (done ++ frames) = p.within frames := by
  unfold beginValue at h ⊢
  split at h
  next => cases h; rfl
  next => cases h; rfl
  next =>
    obtain ⟨v, hv, h⟩ := Option.bind_eq_some_iff.1 h
    simp only [hv, Option.bind_some]
    exact deliver_within h frames

theorem step_within (h : p.step t = some p') (frames : List Frame) :
    step ⟨p.want, p.frames ++ frames⟩ t = p'.within frames := by
  obtain ⟨want, done⟩ := p
  simp only [step] at h
  split at h
  next => exact beginValue_within h frames
  next => exact deliver_within h frames
  next =>
    cases t with
    | closeArray => cases h
    | _ => exact beginValue_within h frames
  next => exact deliver_within h frames
  next => cases h; rfl
  next => cases h; rfl
  next => cases h; rfl
  next => cases h; rfl
  next => cases h; rfl
  next => exact deliver_within h frames
  next => exact deliver_within h frames
  next => cases h

theorem foldlM_nothing (v : Json) (frames : List Frame)
    (h : ts.foldlM step ⟨.nothing v, frames⟩ = some p) : ts = [] := by
  cases ts with
  | nil => rfl
  | cons t ts => cases h

theorem within_of_ne_nothing (unfinished : ∀ v, p.want ≠ .nothing v) (frames : List Frame) :
    p.within frames = some ⟨p.want, p.frames ++ frames⟩ := by
  unfold within
  split
  next v h => exact absurd h (unfinished v)
  next => rfl

theorem foldlM_within (h : (ts.foldlM step p).bind result? = some v)
    (unfinished : ∀ v, p.want ≠ .nothing v) (frames : List Frame) :
    ts.foldlM step ⟨p.want, p.frames ++ frames⟩ = deliver v frames := by
  -- Until the value is complete, the states are those of the value alone with more frames below.
  -- Then it is delivered to these, and no lexeme is left.
  induction ts generalizing p with
  | nil =>
      rw [List.foldlM_nil, Option.pure_def, Option.bind_some] at h
      unfold result? at h
      split at h
      next finished => exact absurd finished (unfinished _)
      next => cases h
  | cons t ts ih =>
      rw [List.foldlM_cons, Option.bind_eq_bind, Option.bind_assoc, Option.bind_eq_some_iff] at h
      obtain ⟨p', hp', h⟩ := h
      rw [List.foldlM_cons, step_within hp' frames]
      by_cases finished : ∃ v, p'.want = .nothing v
      · obtain ⟨w, hw⟩ := finished
        obtain ⟨want, done⟩ := p'
        cases hw
        obtain ⟨last, hlast, hv⟩ := Option.bind_eq_some_iff.1 h
        obtain rfl := foldlM_nothing w done hlast
        cases hlast
        cases hv
        exact bind_pure _
      · have unfinished' (v : Json) : p'.want ≠ .nothing v := fun h => finished ⟨v, h⟩
        rw [within_of_ne_nothing unfinished']
        exact ih h unfinished'

end Progress

def Spells (cs : List Char) (v : Json) : Prop := ∃ ts, Lexes cs ts ∧ ofTokens ts = some v

theorem read_ofList_eq_some_iff {cs : List Char} :
    read (String.ofList cs) = some v ↔ Spells cs v := by
  simp [read, Spells, Option.bind_eq_some_iff, all_eq_some_iff]

theorem foldlM_value (h : ofTokens ts = some v) (us : List Token) (frames : List Frame) :
    (ts ++ us).foldlM Progress.step ⟨.value, frames⟩ = (Progress.deliver v frames).bind
      (us.foldlM Progress.step) := by
  have alone : ts.foldlM Progress.step ⟨.value, frames⟩ = Progress.deliver v frames :=
    Progress.foldlM_within h nofun frames
  rw [List.foldlM_append, alone]
  rfl

theorem foldlM_firstItem (h : ofTokens ts = some v) (us : List Token) (frames : List Frame) :
    (ts ++ us).foldlM Progress.step ⟨.itemOrClose, frames⟩ = (ts ++ us).foldlM Progress.step
      ⟨.value, frames⟩ := by
  rcases ts with _ | ⟨t, ts⟩
  · cases h
  · cases t with
    | closeArray => cases h
    | _ => rfl

theorem spells_str (s : String) : Spells (quoted s) (.str s) :=
  ⟨_, lexes_quoted
    s, by simp [ofTokens, Progress.step, Progress.start, Progress.beginValue, Progress.scalar?, Progress.deliver, Progress.result?]⟩

theorem spells_bool (b : Bool) : Spells (chars (.bool b)) (.bool b) := by
  cases b <;> exact ⟨_, .cons (by decide) rfl lexes_nil, rfl⟩

def Rereads (v w : Json) : Prop := Spells v.chars w

theorem closing_itemChars (items : List Json) : Closing (itemChars false items) := by
  cases items with
  | nil => exact .closeArray []
  | cons v items => exact .comma _

theorem closing_fieldChars (fields : List (String × Json)) : Closing (fieldChars false fields) := by
  cases fields with
  | nil => exact .closeObject []
  | cons f fields => exact .comma _

theorem exists_itemTokens {items items' : List Json} (rereads : items.Forall₂ Rereads items')
    (first : Bool) :
    ∃ ts, Lexes (itemChars first items) ts ∧ ∀ done frames,
      ts.foldlM Progress.step ⟨if first then .itemOrClose else .separator, .items done :: frames⟩ =
        Progress.deliver (.arr (done.reverse ++ items')) frames := by
  induction rereads generalizing first with
  | nil =>
      refine ⟨[.closeArray], .cons (by decide) rfl lexes_nil, fun done frames => ?_⟩
      rw [List.append_nil]
      cases first <;> exact bind_pure _
  | @cons v w items items' head _ ih =>
      obtain ⟨vs, hvs, hv⟩ := head
      obtain ⟨us, hus, hu⟩ := ih false
      have lexes : Lexes (v.chars ++ itemChars false items) (vs ++ us) :=
        hvs.append (closing_itemChars items) hus
      have folds (done frames) : (vs ++ us).foldlM Progress.step ⟨.value, .items done :: frames⟩ =
          Progress.deliver (.arr (done.reverse ++ w :: items')) frames := by
        have h := hu (w :: done) frames
        rw [List.reverse_cons, List.append_assoc] at h
        exact (foldlM_value hv us _).trans h
      cases first with
      | true =>
          exact ⟨_, lexes, fun done frames => (foldlM_firstItem hv us _).trans (folds done frames)⟩
      | false => exact ⟨.comma :: (vs ++ us), .cons (by decide) rfl lexes, folds⟩

theorem Rereads.arr {items items' : List Json} (rereads : items.Forall₂ Rereads items') :
    Rereads (.arr items) (.arr items') := by
  obtain ⟨ts, hts, hfold⟩ := exists_itemTokens rereads true
  refine ⟨.openArray :: ts, .cons (by decide) rfl hts, ?_⟩
  exact congrArg (·.bind Progress.result?) (hfold [] [])

def FieldRereads (f g : String × Json) : Prop := g.1 = f.1 ∧ Rereads f.2 g.2

def readFields (fields : List (String × Json)) : List (Option (List Char) × Json) :=
  fields.map fun f => (some f.1.toList, f.2)

theorem object_readFields (fields : List (String × Json)) :
    Progress.object (readFields fields).reverse = .obj fields := by
  have named : (readFields fields).mapM (fun p => p.1.map fun k => (String.ofList k, p.2)) =
      some fields := by
    induction fields with
    | nil => rfl
    | cons f fields ih =>
        rw [readFields, List.map_cons, List.mapM_cons, ← readFields, ih]
        simp
  simp only [Progress.object, List.reverse_reverse, named]

theorem exists_fieldTokens {fields fields' : List (String × Json)}
    (rereads : fields.Forall₂ FieldRereads fields') (first : Bool) :
    ∃ ts, Lexes (fieldChars first fields) ts ∧ ∀ done frames,
      ts.foldlM Progress.step ⟨if first then .keyOrClose else .separator,
        .fields (readFields done).reverse :: frames⟩ =
        Progress.deliver (.obj (done ++ fields')) frames := by
  induction rereads generalizing first with
  | nil =>
      refine ⟨[.closeObject], .cons (by decide) rfl lexes_nil, fun done frames => ?_⟩
      rw [List.append_nil, ← object_readFields]
      cases first <;> exact bind_pure _
  | @cons f g fields fields' head _ ih =>
      obtain ⟨_, v⟩ := f
      obtain ⟨k, w⟩ := g
      obtain ⟨rfl, vs, hvs, hv⟩ := head
      obtain ⟨us, hus, hu⟩ := ih false
      have lexes : Lexes (quoted k ++ ':' :: (v.chars ++ fieldChars false fields))
          (.str (some k.toList) :: .colon :: (vs ++ us)) :=
        (lexes_quoted k).append (.colon _)
          (.cons (by decide) rfl (hvs.append (closing_fieldChars fields) hus))
      have folds (done frames) : (vs ++ us).foldlM Progress.step
          ⟨.value, .field (readFields done).reverse (some k.toList) :: frames⟩ =
            Progress.deliver (.obj (done ++ (k, w) :: fields')) frames := by
        have h := hu (done ++ [(k, w)]) frames
        rw [List.append_assoc, readFields, List.map_append, List.reverse_append] at h
        exact (foldlM_value hv us _).trans h
      let tokens : List Token := .str (some k.toList) :: .colon :: (vs ++ us)
      cases first with
      | true => exact ⟨tokens, by simpa [fieldChars] using lexes, folds⟩
      | false =>
          exact ⟨.comma :: tokens, .cons (by decide) rfl (by simpa [fieldChars] using lexes), folds⟩

theorem Rereads.obj {fields fields' : List (String × Json)}
    (rereads : fields.Forall₂ FieldRereads fields') : Rereads (.obj fields) (.obj fields') := by
  obtain ⟨ts, hts, hfold⟩ := exists_fieldTokens rereads true
  refine ⟨.openObject :: ts, .cons (by decide) rfl hts, ?_⟩
  exact congrArg (·.bind Progress.result?) (hfold [] [])

end HollowNode.Json
