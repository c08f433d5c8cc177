import HollowNode.Proofs.Json.Format
import Mathlib.Data.List.Nodup
import Mathlib.Logic.Relation
import Mathlib.Tactic.Choose

namespace HollowNode.Json

def values (name : String) (fs : List (String × Json)) : List Json :=
  (fs.filter (·.1 = name)).map (·.2)

/-- A field of a record: how its value is read from those that an object has under its name, and
what is written of it. -/
structure Field (σ : Type) where
  name : String
  {Value : Type}
  get : σ → Value
  read : List Json → Option Value
  write : Value → Option Json
  Varies : Json → Json → Prop
  read_of_varies : ∀ {l r j j' a}, Varies j j' → read (l ++ j :: r) = some a →
    read (l ++ j' :: r) = some a

def Field.named {σ : Type} (F : Field σ) (o : Option Json) : List (String × Json) :=
  (o.map (F.name, ·)).toList

/-- One variation of an object that is read as a record with these fields: they stand in another
order, unless one of them stands there twice; something that is no field of the record is put
between them; or the value of one varies. -/
inductive Change {σ : Type} (known : List (Field σ)) : Json → Json → Prop
  | reorder {fs gs : List (String × Json)} (single : ∀ F ∈ known, (values F.name fs).length ≤ 1)
      (perm : fs.Perm gs) :
      Change known (.obj fs) (.obj gs)
  | insert (l r : List (String × Json)) {name : String}
      (unknown : ∀ F ∈ known, name ≠ F.name) (j : Json) :
      Change known (.obj (l ++ r)) (.obj (l ++ (name, j) :: r))
  | vary (l r : List (String × Json)) {F : Field σ} (mem : F ∈ known) {j j' : Json}
      (varies : F.Varies j j') :
      Change known (.obj (l ++ (F.name, j) :: r)) (.obj (l ++ (F.name, j') :: r))

/-- A record in JSON. What it begins with is written, but nobody reads it. -/
structure Schema (σ : Type) where
  header : List (String × String)
  fields : List (Field σ)
  read : Json → Option σ
  write : σ → Json
  distinct : (fields.map (·.name)).Nodup := by decide
  unread : ∀ p ∈ header, p.1 ∉ fields.map (·.name) := by decide
  read_null : read .null = none := by rfl
  read_obj_iff : ∀ fs s, read (.obj fs) = some s ↔
    ∀ F ∈ fields, F.read (values F.name fs) = some (F.get s)
  write_eq : ∀ s, write s = .obj (header.map (fun p => (p.1, .str p.2)) ++
    fields.flatMap fun F => F.named (F.write (F.get s)))

variable {σ α : Type} {name : String} {fs gs : List (String × Json)} {j j' : Json}

theorem values_append (name : String) (fs gs : List (String × Json)) :
    values name (fs ++ gs) = values name fs ++ values name gs := by
  simp [values]

theorem values_cons (name : String) (f : String × Json) (fs : List (String × Json)) :
    values name (f :: fs) = if f.1 = name then f.2 :: values name fs else values name fs := by
  by_cases h : f.1 = name <;> simp [values, h]

theorem values_eq_of_perm (single : (values name fs).length ≤ 1) (perm : fs.Perm gs) :
    values name gs = values name fs := by
  have same : (values name fs).Perm (values name gs) := (perm.filter _).map _
  match h : values name fs, single with
  | [], _ => rw [h] at same; exact List.nil_perm.1 same
  | [j], _ => rw [h] at same; exact (List.singleton_perm.1 same).symm

theorem values_eq_nil (other : ∀ f ∈ fs, f.1 ≠ name) : values name fs = [] := by
  rw [values, List.filter_eq_nil_iff.2 fun f hf => by simpa using other f hf, List.map_nil]

namespace Schema

variable {S : Schema σ} {s : σ}

theorem read_of_change (change : Change S.fields j j') (reads : S.read j = some s) :
    S.read j' = some s := by
  cases change with
  | @reorder fs gs single perm =>
      refine (S.read_obj_iff _ _).2 fun F mem => ?_
      rw [values_eq_of_perm (single F mem) perm]
      exact (S.read_obj_iff _ _).1 reads F mem
  | @insert l r name unknown j =>
      refine (S.read_obj_iff _ _).2 fun F mem => ?_
      rw [values_append, values_cons, if_neg (unknown F mem), ← values_append]
      exact (S.read_obj_iff _ _).1 reads F mem
  | @vary l r G known j j' varies =>
      refine (S.read_obj_iff _ _).2 fun F mem => ?_
      have before := (S.read_obj_iff _ _).1 reads F mem
      rw [values_append, values_cons] at before ⊢
      by_cases same : G.name = F.name
      · obtain rfl : G = F := List.inj_on_of_nodup_map S.distinct known mem same
        rw [if_pos rfl] at before ⊢
        exact G.read_of_varies varies before
      · rw [if_neg same] at before ⊢
        exact before

def format (S : Schema σ) : Format σ where
  read := S.read
  write := S.write
  Varies := Relation.ReflTransGen (Change S.fields)
  read_null := S.read_null
  eq_null_of_varies h := by
    rcases h.cases_head with rfl | ⟨j, change, -⟩
    · rfl
    · cases change
  read_of_varies h reads := by
    induction h with
    | refl => exact reads
    | tail _ change ih => exact read_of_change change ih

@[simp]
theorem format_read : S.format.read = S.read := rfl

@[simp]
theorem format_write : S.format.write = S.write := rfl

end Schema

namespace Field

variable {get : σ → α} {F : Format α} {s : σ}

def Keeps (F : Field σ) (s : σ) : Prop :=
  ∃ o : Option Json, Option.Rel Rereads (F.write (F.get s)) o ∧ F.read o.toList = some (F.get s)

end Field

theorem values_flatMap {fields : List (Field σ)} (distinct : (fields.map (·.name)).Nodup)
    (given : Field σ → Option Json) {F : Field σ} (mem : F ∈ fields) :
    values F.name (fields.flatMap fun G => G.named (given G)) = (given F).toList := by
  have own (G : Field σ) : values G.name (G.named (given G)) = (given G).toList := by
    cases h : given G <;> simp [values, Field.named]
  have other {G H : Field σ} (ne : H.name ≠ G.name) : values G.name (H.named (given H)) = [] := by
    cases h : given H <;> simp [values, Field.named, ne]
  induction fields with
  | nil => cases mem
  | cons G fields ih =>
      obtain ⟨fresh, distinct⟩ := List.nodup_cons.1 distinct
      rw [List.flatMap_cons, values_append]
      rcases List.mem_cons.1 mem with rfl | mem
      · have later : values F.name (fields.flatMap fun G => G.named (given G)) = [] := by
          refine values_eq_nil fun f hf => ?_
          obtain ⟨G, hG, hf⟩ := List.mem_flatMap.1 hf
          obtain ⟨j, -, rfl⟩ := Option.map_eq_some_iff.1 (Option.mem_toList.1 hf)
          exact fun same => fresh (List.mem_map.2 ⟨G, hG, same⟩)
        rw [own, later, List.append_nil]
      · rw [other fun same => fresh (List.mem_map.2 ⟨F, mem, same.symm⟩), ih distinct mem,
          List.nil_append]

theorem Schema.keeps {S : Schema σ} {s : σ} (all : S.fields.Forall (·.Keeps s)) :
    S.format.Keeps s := by
  have each : ∀ F ∈ S.fields, F.Keeps s := List.forall_iff_forall_mem.1 all
  choose! given rereads reads using each
  -- What is read back is the header, in which no field looks for its values, and then the fields in
  -- their order.
  let written : List (String × Json) := S.header.map fun p => (p.1, .str p.2)
  have header : written.Forall₂ FieldRereads written := by
    refine List.forall₂_same.2 fun f hf => ⟨rfl, ?_⟩
    obtain ⟨p, -, rfl⟩ := List.mem_map.1 hf
    exact spells_str p.2
  have fields : (S.fields.flatMap fun F => F.named (F.write (F.get s))).Forall₂ FieldRereads
      (S.fields.flatMap fun F => F.named (given F)) := by
    generalize S.fields = Fs at rereads
    induction Fs with
    | nil => exact .nil
    | cons F Fs ih =>
        obtain ⟨first, rest⟩ := List.forall_mem_cons.1 rereads
        rw [List.flatMap_cons, List.flatMap_cons]
        refine List.rel_append ?_ (ih rest)
        generalize F.write (F.get s) = o at first ⊢
        generalize given F = o' at first ⊢
        cases first with
        | none => exact .nil
        | some rereads => exact .cons ⟨rfl, rereads⟩ .nil
  refine Format.keeps_iff.2 ⟨.obj (written ++ S.fields.flatMap fun F => F.named (given F)), ?_, ?_⟩
  · have rereads := Rereads.obj (List.rel_append header fields)
    rwa [← S.write_eq] at rereads
  · refine (S.read_obj_iff _ _).2 fun F mem => ?_
    have unread : values F.name written = [] := by
      refine values_eq_nil fun f hf => ?_
      obtain ⟨p, hp, rfl⟩ := List.mem_map.1 hf
      exact fun same => S.unread p hp (List.mem_map.2 ⟨F, mem, same.symm⟩)
    rw [values_append, unread, List.nil_append, values_flatMap S.distinct given mem]
    exact reads F mem

/-- A text differs from another one in nothing that matters to the reader of a record. -/
def Respells (fields : List (Field σ)) (text other : String) : Prop :=
  ∃ j j', Json.read text = some j ∧ Relation.ReflTransGen (Change fields) j j' ∧
    Json.read other = some j'

/-- The records of a type are read back from the texts in which they are written, also where these
are respelled. -/
structure RoundTrips (write : σ → Json) (read : Json → Option σ) (fields : List (Field σ))
    (Fits : σ → Prop) : Prop where
  kept : ∀ s, Fits s → (Json.read (write s).write).bind read = some s
  respelled : ∀ s, Fits s → ∀ text, Respells fields (write s).write text →
    (Json.read text).bind read = some s
  again : ∀ text s, (Json.read text).bind read = some s → Fits s →
    (Json.read (write s).write).bind read = some s

theorem Schema.roundTrips (S : Schema σ) {Fits : σ → Prop}
    (keeps : ∀ s, Fits s → S.format.Keeps s) : RoundTrips S.write S.read S.fields Fits where
  kept := keeps
  respelled s fits := by
    rintro text ⟨j, j', written, varies, spelled⟩
    have reads : S.format.read j = some s := by simpa [Format.Keeps, written] using keeps s fits
    rw [spelled]
    exact S.format.read_of_varies varies reads
  again _ s _ := keeps s

namespace Format

variable {F : Format α} {a : α}

theorem nullable_of_read (reads : F.read j = some a) : nullable F.read j = some (some a) := by
  unfold nullable
  split
  next => rw [F.read_null] at reads; cases reads
  next => rw [reads]; rfl

theorem nullable_of_varies {o : Option α} (varies : F.Varies j j')
    (reads : nullable F.read j = some o) : nullable F.read j' = some o := by
  by_cases null : j = .null
  · subst null
    rwa [F.eq_null_of_varies varies]
  · have some : (F.read j).map some = some o := by
      rw [← reads]
      cases j with
      | null => exact absurd rfl null
      | _ => rfl
    obtain ⟨a, ha, rfl⟩ := Option.map_eq_some_iff.1 some
    exact nullable_of_read (F.read_of_varies varies ha)

end Format

namespace Field

def atMostOne (read : Option Json → Option α) : List Json → Option α
  | [] => read none
  | [j] => read (some j)
  | _ => none

theorem atMostOne_values (read : Option Json → Option α) (name : String)
    (fs : List (String × Json)) : atMostOne read (values name fs) = (single name fs).bind read := by
  unfold single values
  generalize fs.filter (·.1 = name) = named
  match named with
  | [] | [_] | _ :: _ :: _ => rfl

def strict (name : String) (get : σ → α) (Varies : Json → Json → Prop)
    (read : Option Json → Option α) (write : α → Option Json)
    (read_of_varies : ∀ {j j' a}, Varies j j' → read (some j) = some a → read (some j') = some a) :
    Field σ where
  name := name
  get := get
  read := atMostOne read
  write := write
  Varies := Varies
  read_of_varies := by
    intro l r j j' a varies reads
    rcases l with _ | ⟨i, _ | ⟨k, l⟩⟩
    · cases r with
      | nil => exact read_of_varies varies reads
      | cons k r => cases reads
    · cases reads
    · cases reads

variable (name) (get : σ → α) (F : Format α)

def required : Field σ :=
  strict name get F.Varies (·.bind F.read) (fun a => some (F.write a)) F.read_of_varies

def preset (fallback : α) : Field σ :=
  strict name get F.Varies (defaulted fallback F.read) (fun a => some (F.write a)) F.read_of_varies

def unlessEmpty (isEmpty : α → Bool) (fallback : α) : Field σ :=
  strict name get F.Varies (defaulted fallback F.read) (fun a => if isEmpty a then none
    else some (F.write a)) F.read_of_varies

def perhaps (get : σ → Option α) : Field σ :=
  strict name get F.Varies (defaulted none (nullable F.read))
    (Option.map F.write) F.nullable_of_varies

variable {name get F} {s : σ}

@[simp]
theorem reads_required : (required name get F).read (values (required name get F).name fs) =
    some ((required name get F).get s) ↔
    ∃ j, single name fs = some (some j) ∧ F.read j = some (get s) := by
  have h : (required name get F).read (values (required name get F).name fs) =
      some ((required name get F).get s) ↔
      (single name fs).bind (·.bind F.read) = some (get s) := by
    rw [← atMostOne_values]
    rfl
  simp only [h, Option.bind_eq_some_iff]
  constructor
  · rintro ⟨o, ho, j, rfl, hj⟩
    exact ⟨j, ho, hj⟩
  · rintro ⟨j, ho, hj⟩
    exact ⟨_, ho, j, rfl, hj⟩

@[simp]
theorem reads_preset {fallback : α} :
    (preset name get F fallback).read (values (preset name get F fallback).name fs) =
    some ((preset name get F fallback).get s) ↔
      ∃ o, single name fs = some o ∧ defaulted fallback F.read o = some (get s) := by
  rw [← Option.bind_eq_some_iff, ← atMostOne_values]
  rfl

@[simp]
theorem reads_unlessEmpty {isEmpty : α → Bool} {fallback : α} :
    (unlessEmpty name get F isEmpty fallback).read
      (values (unlessEmpty name get F isEmpty fallback).name fs) =
      some ((unlessEmpty name get F isEmpty fallback).get s) ↔
        ∃ o, single name fs = some o ∧ defaulted fallback F.read o = some (get s) := by
  rw [← Option.bind_eq_some_iff, ← atMostOne_values]
  rfl

@[simp]
theorem reads_perhaps {get : σ → Option α} :
    (perhaps name F get).read (values (perhaps name F get).name fs) =
    some ((perhaps name F get).get s) ↔
      ∃ o, single name fs = some o ∧ defaulted none (nullable F.read) o = some (get s) := by
  rw [← Option.bind_eq_some_iff, ← atMostOne_values]
  rfl

@[simp]
theorem named_required :
    (required name get F).named ((required name get F).write ((required name get F).get s)) =
    [(name, F.write (get s))] := rfl

@[simp]
theorem named_preset {fallback : α} : (preset name get F fallback).named
    ((preset name get F fallback).write ((preset name get F fallback).get s)) =
      [(name, F.write (get s))] := rfl

@[simp]
theorem named_unlessEmpty {isEmpty : α → Bool} {fallback : α} :
    (unlessEmpty name get F isEmpty fallback).named
    ((unlessEmpty name get F isEmpty fallback).write
      ((unlessEmpty name get F isEmpty fallback).get s)) = if isEmpty (get s) then []
      else [(name, F.write (get s))] := by
  cases h : isEmpty (get s) <;> simp [unlessEmpty, strict, named, h]

@[simp]
theorem named_perhaps {get : σ → Option α} : (perhaps name F get).named
    ((perhaps name F get).write ((perhaps name F get).get s)) = optional name F.write (get s) := by
  cases h : get s <;> simp [perhaps, strict, named, optional, h]

theorem keeps_of_some {G : Field σ} (write : G.write (G.get s) = some j) (rereads : Rereads j j')
    (reads : G.read [j'] = some (G.get s)) : G.Keeps s :=
  ⟨some j', by rw [write]; exact .some rereads, reads⟩

theorem keeps_of_none {G : Field σ} (write : G.write (G.get s) = none)
    (reads : G.read [] = some (G.get s)) : G.Keeps s :=
  ⟨none, by rw [write]; exact .none, reads⟩

theorem keeps_required (keeps : F.Keeps (get s)) : (required name get F).Keeps s := by
  obtain ⟨j, rereads, reads⟩ := Format.keeps_iff.1 keeps
  exact keeps_of_some rfl rereads reads

theorem keeps_preset {fallback : α} (keeps : F.Keeps (get s)) :
    (preset name get F fallback).Keeps s := by
  obtain ⟨j, rereads, reads⟩ := Format.keeps_iff.1 keeps
  exact keeps_of_some rfl rereads reads

theorem keeps_unlessEmpty {isEmpty : α → Bool} {fallback : α}
    (empty : ∀ a, isEmpty a = true → a = fallback) (keeps : F.Keeps (get s)) :
    (unlessEmpty name get F isEmpty fallback).Keeps s := by
  cases h : isEmpty (get s) with
  | true => exact keeps_of_none (if_pos h) (congrArg some (empty _ h).symm)
  | false =>
      obtain ⟨j, rereads, reads⟩ := Format.keeps_iff.1 keeps
      exact keeps_of_some (if_neg (by simp [unlessEmpty, strict, h])) rereads reads

theorem keeps_perhaps {get : σ → Option α} (keeps : ∀ a, get s = some a → F.Keeps a) :
    (perhaps name F get).Keeps s := by
  cases h : get s with
  | none => exact keeps_of_none (congrArg (Option.map F.write) h) (congrArg some h.symm)
  | some a =>
      obtain ⟨j, rereads, reads⟩ := Format.keeps_iff.1 (keeps a h)
      exact keeps_of_some (congrArg (Option.map F.write) h) rereads
        ((F.nullable_of_read reads).trans (congrArg some h.symm))

def latest (read : Json → Option α) (js : List Json) : Option (Option α) :=
  (js.mapM (nullable read)).map (·.getLast?.join)

theorem latest_values (read : Json → Option α) (name : String) (fs : List (String × Json)) :
    latest read (values name fs) = Json.latest name read fs := by
  simp only [latest, values, Json.latest, List.mapM_map, Option.map_eq_bind]
  rfl

theorem latest_of_varies {l r : List Json} {o : Option α} (varies : F.Varies j j')
    (reads : latest F.read (l ++ j :: r) = some o) : latest F.read (l ++ j' :: r) = some o := by
  obtain ⟨os, all, rfl⟩ := Option.map_eq_some_iff.1 reads
  refine Option.map_eq_some_iff.2 ⟨os, ?_, rfl⟩
  clear reads
  rw [mapM_eq_some_iff] at all ⊢
  induction l generalizing os with
  | nil =>
      cases all with
      | cons first rest => exact .cons (F.nullable_of_varies varies first) rest
  | cons k l ih =>
      cases all with
      | cons first rest => exact .cons first (ih _ rest)

def last (name : String) (F : Format α) (get : σ → Option α) : Field σ where
  name := name
  get := get
  read := latest F.read
  write := Option.map F.write
  Varies := F.Varies
  read_of_varies := latest_of_varies

@[simp]
theorem reads_last {get : σ → Option α} :
    (last name F get).read (values (last name F get).name fs) = some ((last name F get).get s) ↔
    Json.latest name F.read fs = some (get s) := by
  rw [← latest_values]
  rfl

theorem latest_singleton {a : α} (reads : F.read j = some a) :
    latest F.read [j] = some (some a) := by
  simp [latest, F.nullable_of_read reads]

theorem keeps_last {get : σ → Option α} (keeps : ∀ a, get s = some a → F.Keeps a) :
    (last name F get).Keeps s := by
  cases h : get s with
  | none => exact keeps_of_none (congrArg (Option.map F.write) h) (congrArg some h.symm)
  | some a =>
      obtain ⟨j, rereads, reads⟩ := Format.keeps_iff.1 (keeps a h)
      exact keeps_of_some (congrArg (Option.map F.write) h) rereads
        ((latest_singleton reads).trans (congrArg some h.symm))

@[simp]
theorem named_last {get : σ → Option α} :
    (last name F get).named ((last name F get).write ((last name F get).get s)) =
    optional name F.write (get s) := by
  cases h : get s <;> simp [last, named, optional, h]

def lastText (name : String) (get : σ → String) : Field σ where
  name := name
  get := get
  read js := (latest text? js).map (·.getD "")
  write s := some (.str s)
  Varies := Eq
  read_of_varies h := h ▸ id

theorem keeps_lastText {get : σ → String} : (lastText name get).Keeps s := by
  have reads : latest text? [.str (get s)] = some (some (get s)) :=
    latest_singleton (F := .text) rfl
  exact keeps_of_some rfl (spells_str _)
    (congrArg (Option.map fun o : Option String => o.getD "") reads)

@[simp]
theorem reads_lastText {get : σ → String} :
    (lastText name get).read (values (lastText name get).name fs) =
    some ((lastText name get).get s) ↔
    ∃ o, Json.latest name text? fs = some o ∧ o.getD "" = get s := by
  rw [← Option.map_eq_some_iff, ← latest_values]
  rfl

@[simp]
theorem named_lastText {get : σ → String} : (lastText name get).named
    ((lastText name get).write ((lastText name get).get s)) = [(name, .str (get s))] := rfl

end Field

end HollowNode.Json
