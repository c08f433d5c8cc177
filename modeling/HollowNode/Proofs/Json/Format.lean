import HollowNode.Json.Record
import HollowNode.Proofs.Dict
import HollowNode.Proofs.Json.Rereading

namespace HollowNode.Json

theorem mapM_eq_some_iff {α β : Type} {f : α → Option β} {as : List α} {bs : List β} :
    as.mapM f = some bs ↔ as.Forall₂ (fun a b => f a = some b) bs := by
  induction as generalizing bs with
  | nil => cases bs <;> simp
  | cons a as ih =>
      simp only [List.mapM_cons, Option.bind_eq_bind, Option.bind_eq_some_iff, ih,
        List.forall₂_cons_left_iff]
      constructor
      · rintro ⟨b, hb, bs, rest, ⟨⟩⟩
        exact ⟨b, bs, hb, rest, rfl⟩
      · rintro ⟨b, bs, hb, rest, rfl⟩
        exact ⟨b, hb, bs, rest, rfl⟩

/-- How values are read and written, and what does not matter to their reader. -/
structure Format (α : Type) where
  read : Json → Option α
  write : α → Json
  Varies : Json → Json → Prop
  read_null : read .null = none
  eq_null_of_varies : ∀ {j}, Varies .null j → j = .null
  read_of_varies : ∀ {j j' a}, Varies j j' → read j = some a → read j' = some a

namespace Format

variable {α : Type} {F : Format α} {a : α} {as : List α}

def Keeps (F : Format α) (a : α) : Prop := (Json.read (F.write a).write).bind F.read = some a

theorem keeps_iff : F.Keeps a ↔ ∃ j, Rereads (F.write a) j ∧ F.read j = some a := by
  simp only [Keeps, Json.write, Option.bind_eq_some_iff, read_ofList_eq_some_iff, Rereads]

def plain (read : Json → Option α) (write : α → Json) (read_null : read .null = none) :
    Format α where
  read := read
  write := write
  Varies := Eq
  read_null := read_null
  eq_null_of_varies h := h.symm
  read_of_varies h := h ▸ id

def text : Format String := plain text? .str rfl

def flag : Format Bool := plain flag? .bool rfl

def texts : Format (Dict String) := plain (dict? text?) (ofDict .str) rfl

@[simp]
theorem text_read : text.read = text? := rfl

@[simp]
theorem text_write : text.write = .str := rfl

@[simp]
theorem flag_read : flag.read = flag? := rfl

@[simp]
theorem flag_write : flag.write = .bool := rfl

@[simp]
theorem texts_read : texts.read = dict? text? := rfl

@[simp]
theorem texts_write : texts.write = ofDict .str := rfl

theorem keeps_text (s : String) : text.Keeps s := keeps_iff.2 ⟨_, spells_str s, rfl⟩

theorem keeps_flag (b : Bool) : flag.Keeps b := keeps_iff.2 ⟨_, spells_bool b, rfl⟩

theorem keeps_texts (m : Dict String) : texts.Keeps m := by
  refine keeps_iff.2 ⟨texts.write m, Rereads.obj (List.forall₂_same.2 fun f hf => ⟨rfl, ?_⟩), ?_⟩
  · obtain ⟨p, -, rfl⟩ := List.mem_map.1 hf
    exact spells_str p.2
  · have entries : (m.entries.map fun p => (p.1, Json.str p.2)).mapM
        (fun p => (text? p.2).map fun a => (p.1, a)) = some m.entries := by
      simp [mapM_eq_some_iff, List.forall₂_same, text?]
    simp only [texts, plain, dict?, ofDict, entries, Option.map_some, Dict.ofList_entries]

def list (F : Format α) : Format (List α) where
  read := list? F.read
  write as := .arr (as.map F.write)
  Varies j j' := ∃ items items', j = .arr items ∧ j' = .arr items' ∧ items.Forall₂ F.Varies items'
  read_null := rfl
  eq_null_of_varies := by
    rintro j ⟨items, items', ⟨⟩, -⟩
  read_of_varies := by
    rintro _ _ as ⟨items, items', rfl, rfl, varies⟩ reads
    simp only [list?, mapM_eq_some_iff] at reads ⊢
    induction varies generalizing as with
    | nil => exact reads
    | cons head _ ih =>
        cases reads with
        | cons first rest => exact .cons (F.read_of_varies head first) (ih rest)

@[simp]
theorem list_read : F.list.read = list? F.read := rfl

@[simp]
theorem list_write : F.list.write = fun as => .arr (as.map F.write) := rfl

theorem keeps_list (each : ∀ a ∈ as, F.Keeps a) : F.list.Keeps as := by
  have items : ∃ items, (as.map F.write).Forall₂ Rereads items ∧
      items.Forall₂ (fun j a => F.read j = some a) as := by
    induction as with
    | nil => exact ⟨[], .nil, .nil⟩
    | cons a as ih =>
        obtain ⟨first, rest⟩ := List.forall_mem_cons.1 each
        obtain ⟨j, rereads, reads⟩ := keeps_iff.1 first
        obtain ⟨items, hitems, has⟩ := ih rest
        exact ⟨j :: items, .cons rereads hitems, .cons reads has⟩
  obtain ⟨items, rereads, reads⟩ := items
  exact keeps_iff.2 ⟨.arr items, .arr rereads, mapM_eq_some_iff.2 reads⟩

end Format

end HollowNode.Json
