namespace HollowNode

variable {ε α β : Type} {x : Except ε α} {f : α → Except ε β} {b : β}

theorem bind_eq_ok_iff : (x >>= f) = .ok b ↔ ∃ a, x = .ok a ∧ f a = .ok b := by
  cases x with
  | error e => exact ⟨nofun, fun ⟨_, h, _⟩ => nomatch h⟩
  | ok a =>
      constructor
      · exact fun h => ⟨a, rfl, h⟩
      · rintro ⟨_, ⟨⟩, h⟩
        exact h

theorem bind_eq_error_iff {e : ε} :
    (x >>= f) = .error e ↔ x = .error e ∨ ∃ a, x = .ok a ∧ f a = .error e := by
  cases x with
  | error e' =>
      constructor
      · intro h
        cases h
        exact .inl rfl
      · rintro (h | ⟨_, h, _⟩)
        · cases h
          rfl
        · cases h
  | ok a =>
      constructor
      · exact fun h => .inr ⟨a, rfl, h⟩
      · rintro (h | ⟨_, ⟨⟩, h⟩)
        · cases h
        · exact h

theorem map_eq_ok_iff {f : α → β} : x.map f = .ok b ↔ ∃ a, x = .ok a ∧ f a = b := by
  cases x with
  | error e => exact ⟨nofun, fun ⟨_, h, _⟩ => nomatch h⟩
  | ok a =>
      constructor
      · exact fun h => ⟨a, rfl, Except.ok.inj h⟩
      · rintro ⟨_, ⟨⟩, h⟩
        exact congrArg Except.ok h

theorem mapError_eq_ok_iff {ε' : Type} {f : ε → ε'} {a : α} :
    x.mapError f = .ok a ↔ x = .ok a := by
  cases x with
  | error e => exact ⟨nofun, nofun⟩
  | ok b => exact ⟨fun h => congrArg Except.ok (Except.ok.inj h), fun h => congrArg _ h⟩

theorem eq_ok_of_toOption {a : α} (h : x.toOption = some a) : x = .ok a := by
  cases x with
  | error e => cases h
  | ok b => exact congrArg Except.ok (Option.some.inj h)

theorem mapM_ok_iff {l : List α} : (∃ bs, l.mapM f = .ok bs) ↔ ∀ a ∈ l, ∃ b, f a = .ok b := by
  induction l with
  | nil => exact ⟨fun _ => nofun, fun _ => ⟨[], rfl⟩⟩
  | cons a l ih =>
      rw [List.forall_mem_cons, ← ih, List.mapM_cons]
      simp only [bind_eq_ok_iff]
      constructor
      · rintro ⟨_, b, first, bs, rest, _⟩
        exact ⟨⟨b, first⟩, bs, rest⟩
      · rintro ⟨⟨b, first⟩, bs, rest⟩
        exact ⟨b :: bs, b, first, bs, rest, rfl⟩

theorem mapM_eq_error_of_first {before after : List α} {a : α} {e : ε}
    (accepted : ∀ b ∈ before, ∃ c, f b = .ok c) (refused : f a = .error e) :
    (before ++ a :: after).mapM f = .error e := by
  induction before with
  | nil =>
      rw [List.nil_append, List.mapM_cons]
      exact bind_eq_error_iff.2 (.inl refused)
  | cons b before ih =>
      obtain ⟨⟨c, hb⟩, rest⟩ := List.forall_mem_cons.1 accepted
      rw [List.cons_append, List.mapM_cons]
      exact bind_eq_error_iff.2 (.inr ⟨c, hb, bind_eq_error_iff.2 (.inl (ih rest))⟩)

/-- Where a reader accepts what a writer writes and nothing else, the items that a list is read as
are those that it is written from. -/
theorem mapM_eq_ok_iff {write : β → α} {Fits : β → Prop} {l : List α} {bs : List β}
    (inverse : ∀ a ∈ l, ∀ b, f a = .ok b ↔ Fits b ∧ a = write b) :
    l.mapM f = .ok bs ↔ (∀ b ∈ bs, Fits b) ∧ l = bs.map write := by
  induction l generalizing bs with
  | nil =>
      have hnil : ([] : List α).mapM f = .ok [] := rfl
      cases bs <;> simp [hnil]
  | cons a l ih =>
      obtain ⟨head, tail⟩ := List.forall_mem_cons.1 inverse
      rw [List.mapM_cons, bind_eq_ok_iff]
      simp only [bind_eq_ok_iff, ih tail, head]
      constructor
      · rintro ⟨b, ⟨fits, rfl⟩, bs, ⟨rest, rfl⟩, ⟨⟩⟩
        exact ⟨List.forall_mem_cons.2 ⟨fits, rest⟩, rfl⟩
      · rintro ⟨fits, h⟩
        obtain ⟨b, bs, rfl, rfl, rfl⟩ := List.map_eq_cons_iff.1 h.symm
        obtain ⟨first, rest⟩ := List.forall_mem_cons.1 fits
        exact ⟨b, ⟨first, rfl⟩, bs, ⟨rest, rfl⟩, rfl⟩

end HollowNode
