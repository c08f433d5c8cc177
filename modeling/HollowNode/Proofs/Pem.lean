import HollowNode.Pem
import HollowNode.Proofs.Base64
import HollowNode.Proofs.Text.Pieces

namespace HollowNode.Pem

variable {marker left before before' cs ds rest text : List Char} {r : Raw} {c : Char}
  {b : Block} {s : String}

theorem cutFrom_nil (marker left before : List Char) : cutFrom marker left before [] = none := by
  cases left <;> rfl

theorem cutFrom_cons (marker left before : List Char) (m c : Char) (cs : List Char) :
    cutFrom marker (m :: left) before (c :: cs) =
      if c ≠ m then cutFrom marker marker (c :: before) cs
      else if left.isEmpty then some ((before.drop (marker.length - 1)).reverse, cs)
      else cutFrom marker left (c :: before) cs := rfl

theorem length_cutFrom (h : cutFrom marker left before cs = some (text, rest)) :
    rest.length < cs.length := by
  induction cs generalizing left before with
  | nil => simp [cutFrom_nil] at h
  | cons c cs ih =>
      cases left with
      | nil => cases h
      | cons m left =>
          rw [cutFrom_cons] at h
          split at h
          · exact Nat.lt_succ_of_lt (ih h)
          · split at h
            · cases h
              exact Nat.lt_succ_self _
            · exact Nat.lt_succ_of_lt (ih h)

theorem length_cut (h : cut marker cs = some (text, rest)) : rest.length < cs.length :=
  length_cutFrom h

theorem map_snd_cutFrom (before before' : List Char) :
    (cutFrom marker left before cs).map Prod.snd =
      (cutFrom marker left before' cs).map Prod.snd := by
  induction cs generalizing left before before' with
  | nil => rw [cutFrom_nil, cutFrom_nil]
  | cons c cs ih =>
      cases left with
      | nil => rfl
      | cons m left =>
          rw [cutFrom_cons, cutFrom_cons]
          split
          · exact ih _ _
          · split
            · rfl
            · exact ih _ _

theorem cutFrom_free {m : Char} {ms : List Char} (free : m ∉ text) (before cs : List Char) :
    cutFrom (m :: ms) (m :: ms) before (text ++ cs) = cutFrom (m :: ms) (m :: ms)
      (text.reverse ++ before) cs := by
  induction text generalizing before with
  | nil => rfl
  | cons c text ih =>
      obtain ⟨ne, free⟩ : m ≠ c ∧ m ∉ text := by simpa using free
      rw [List.cons_append, cutFrom_cons, if_pos (Ne.symm ne), ih free]
      simp

theorem cutFrom_marker (passed : List Char) (hleft : left ≠ []) (hmarker : marker = passed ++ left)
    (rest : List Char) :
    cutFrom marker left (passed.reverse ++ before) (left ++ rest) =
      some (before.reverse, rest) := by
  induction left generalizing passed with
  | nil => exact absurd rfl hleft
  | cons m left ih =>
      rw [List.cons_append, cutFrom_cons, if_neg (by simp)]
      cases left with
      | nil =>
          have length : marker.length - 1 = passed.reverse.length := by simp [hmarker]
          rw [if_pos (by simp), length, List.drop_left]
          rfl
      | cons m' left =>
          have later := ih (passed ++ [m]) (by simp) (by simp [hmarker])
          rw [List.reverse_append] at later
          exact later

theorem cut_append {m : Char} (starts : marker.head? = some m) (free : m ∉ text)
    (rest : List Char) : cut marker (text ++ (marker ++ rest)) = some (text, rest) := by
  obtain ⟨ms, rfl⟩ := List.head?_eq_some_iff.1 starts
  have found : cutFrom (m :: ms) (m :: ms) text.reverse (m :: ms ++ rest) =
      some (text.reverse.reverse, rest) :=
    cutFrom_marker [] (List.cons_ne_nil m ms) rfl rest
  rw [List.reverse_reverse] at found
  rw [cut, cutFrom_free free, List.append_nil]
  exact found

theorem cut_of_free {m : Char} {ms : List Char} (free : m ∉ text) : cut (m :: ms) text = none := by
  have passed : cut (m :: ms) (text ++ []) = _ := cutFrom_free free [] []
  rwa [List.append_nil, cutFrom_nil] at passed

def Ended (cs ds : List Char) : Prop := ds = cs ∨ ds = cs ++ ['\n']

theorem Ended.dropWhile (h : Ended cs ds) : Ended (cs.dropWhile isGap) (ds.dropWhile isGap) := by
  rcases h with rfl | rfl
  · exact .inl rfl
  · induction cs with
    | nil => exact .inl rfl
    | cons c cs ih =>
        by_cases gap : isGap c = true
        · simpa [List.dropWhile_cons, gap] using ih
        · exact .inr (by simp [gap])

/-- The same is read from two texts, and what is left of one is what is left of the other, perhaps
with a line end. -/
abbrev Agree {α : Type} (p q : α × List Char) : Prop := p.1 = q.1 ∧ Ended p.2 q.2

theorem cutFrom_ended (hmarker : '\n' ∉ marker) (hleft : '\n' ∉ left) (h : Ended cs ds) :
    Option.Rel Agree (cutFrom marker left before cs) (cutFrom marker left before ds) := by
  rcases h with rfl | rfl
  · cases cutFrom marker left before ds with
    | none => exact .none
    | some p => exact .some ⟨rfl, .inl rfl⟩
  · induction cs generalizing left before with
    | nil =>
        rw [cutFrom_nil]
        cases left with
        | nil => exact .none
        | cons m left =>
            -- A line end does not go on with any marker, so that the longer text has none either.
            have ne : '\n' ≠ m := fun h => hleft (h ▸ List.mem_cons_self)
            rw [List.nil_append, cutFrom_cons, if_pos ne, cutFrom_nil]
            exact .none
    | cons c cs ih =>
        cases left with
        | nil => exact .none
        | cons m left =>
            rw [List.cons_append, cutFrom_cons, cutFrom_cons]
            split
            · exact ih hmarker
            · split
              · exact .some ⟨rfl, .inr rfl⟩
              · exact ih fun h => hleft (List.mem_cons_of_mem m h)

theorem cut_ended (hmarker : '\n' ∉ marker) (h : Ended cs ds) :
    Option.Rel Agree (cut marker cs) (cut marker ds) :=
  cutFrom_ended hmarker hmarker h

theorem nextRaw_eq_some_iff : nextRaw cs = some (r, rest) ↔
    ∃ before cs₁ cs₂ body cs₃ cs₄, cut "-----BEGIN ".toList cs = some (before, cs₁) ∧
      cut "-----".toList cs₁ = some (r.beginLabel, cs₂) ∧
      cut "-----END ".toList (cs₂.dropWhile isGap) = some (body, cs₃) ∧
      cut "-----".toList cs₃ = some (r.endLabel, cs₄) ∧ splitHeaders body = (r.headers, r.data) ∧
      cs₄.dropWhile isGap = rest := by
  constructor
  · intro h
    simp only [nextRaw, bind, Option.bind_eq_some_iff, Prod.exists] at h
    obtain ⟨before, cs₁, begin_, beginLabel, cs₂, label, body, cs₃, end_, endLabel, cs₄,
      label', split⟩ := h
    cases split
    exact ⟨before, cs₁, cs₂, body, cs₃, cs₄, begin_, label, end_, label', rfl, rfl⟩
  · rintro ⟨before, cs₁, cs₂, body, cs₃, cs₄, begin_, label, end_, label', split, rfl⟩
    simp only [nextRaw, bind, Option.bind, begin_, label, end_, label', split, pure]

theorem length_nextRaw (h : nextRaw cs = some (r, rest)) : rest.length < cs.length := by
  obtain ⟨_, cs₁, cs₂, _, cs₃, cs₄, h₁, h₂, h₃, h₄, _, rfl⟩ := nextRaw_eq_some_iff.1 h
  have gaps (cs : List Char) : (cs.dropWhile isGap).length ≤ cs.length :=
    (List.dropWhile_suffix isGap).length_le
  calc (cs₄.dropWhile isGap).length
      ≤ cs₄.length := gaps cs₄
    _ < cs₃.length := length_cut h₄
    _ < (cs₂.dropWhile isGap).length := length_cut h₃
    _ ≤ cs₂.length := gaps cs₂
    _ < cs₁.length := length_cut h₂
    _ < cs.length := length_cut h₁

theorem nextRaw_gap (gap : isGap c = true) (cs : List Char) : nextRaw (c :: cs) = nextRaw cs := by
  have ne : c ≠ '-' := by
    rintro rfl
    exact absurd gap (by decide)
  have step : cut "-----BEGIN ".toList (c :: cs) = cutFrom "-----BEGIN ".toList
    "-----BEGIN ".toList [c] cs := if_pos ne
  have same : (cut "-----BEGIN ".toList (c :: cs)).map Prod.snd =
      (cut "-----BEGIN ".toList cs).map Prod.snd :=
    (congrArg (Option.map Prod.snd) step).trans (map_snd_cutFrom [c] [])
  unfold nextRaw
  revert same
  cases cut "-----BEGIN ".toList (c :: cs) <;> cases cut "-----BEGIN ".toList cs
  · exact fun _ => rfl
  · rintro ⟨⟩
  · rintro ⟨⟩
  next p q =>
    intro same
    have rests : p.2 = q.2 := Option.some.inj same
    simp only [bind, Option.bind, rests]

theorem nextRaw_dropWhile (cs : List Char) : nextRaw (cs.dropWhile isGap) = nextRaw cs := by
  induction cs with
  | nil => rfl
  | cons c cs ih =>
      by_cases gap : isGap c = true
      · rw [List.dropWhile_cons_of_pos gap, ih, nextRaw_gap gap]
      · rw [List.dropWhile_cons_of_neg gap]

theorem rel_bind {α β γ δ : Type} {R : α → β → Prop} {S : γ → δ → Prop} {x : Option α}
    {y : Option β} {f : α → Option γ} {g : β → Option δ} (first : Option.Rel R x y)
    (next : ∀ a b, R a b → Option.Rel S (f a) (g b)) : Option.Rel S (x.bind f) (y.bind g) := by
  cases first with
  | none => exact .none
  | some h => exact next _ _ h

theorem rel_nextRaw (h : Ended cs ds) : Option.Rel Agree (nextRaw cs) (nextRaw ds) := by
  refine rel_bind (cut_ended (by decide) h) ?_
  rintro ⟨_, cs₁⟩ ⟨_, ds₁⟩ ⟨-, h₁⟩
  refine rel_bind (cut_ended (by decide) h₁) ?_
  rintro ⟨beginLabel, cs₂⟩ ⟨_, ds₂⟩ ⟨rfl, h₂⟩
  refine rel_bind (cut_ended (by decide) h₂.dropWhile) ?_
  rintro ⟨body, cs₃⟩ ⟨_, ds₃⟩ ⟨rfl, h₃⟩
  refine rel_bind (cut_ended (by decide) h₃) ?_
  rintro ⟨endLabel, cs₄⟩ ⟨_, ds₄⟩ ⟨rfl, h₄⟩
  exact .some ⟨rfl, h₄.dropWhile⟩

theorem nextRaw_ended (h : Ended cs ds) : (nextRaw cs = none ∧ nextRaw ds = none) ∨
    ∃ r rest rest', nextRaw cs = some (r, rest) ∧ nextRaw ds = some (r, rest') ∧
      Ended rest rest' := by
  have next := rel_nextRaw h
  generalize nextRaw cs = x at next
  generalize nextRaw ds = y at next
  cases next with
  | none => exact .inl ⟨rfl, rfl⟩
  | @some p q same =>
      obtain ⟨r, rest⟩ := p
      obtain ⟨_, rest'⟩ := q
      obtain ⟨rfl, rests⟩ := same
      exact .inr ⟨r, rest, rest', rfl, rfl, rests⟩

def raws (cs : List Char) : List Raw := rawBlocks cs.length cs

theorem rawBlocks_eq {room room' : Nat} (h : cs.length ≤ room) (h' : cs.length ≤ room') :
    rawBlocks room cs = rawBlocks room' cs := by
  induction room generalizing room' cs with
  | zero =>
      obtain rfl : cs = [] := List.length_eq_zero_iff.1 (by omega)
      cases room' <;> rfl
  | succ room ih =>
      cases room' with
      | zero =>
          obtain rfl : cs = [] := List.length_eq_zero_iff.1 (by omega)
          rfl
      | succ room' =>
          rw [rawBlocks, rawBlocks]
          cases hnext : nextRaw cs with
          | none => rfl
          | some p =>
              have shorter := length_nextRaw hnext
              exact congrArg (p.1 :: ·) (ih (by omega) (by omega))

theorem raws_eq (cs : List Char) :
    raws cs = match nextRaw cs with
      | some (r, rest) => r :: raws rest
      | none => [] := by
  have room : raws cs = rawBlocks (cs.length + 1) cs := rawBlocks_eq (by omega) (by omega)
  rw [room, rawBlocks]
  cases hnext : nextRaw cs with
  | none => rfl
  | some p =>
      have shorter := length_nextRaw hnext
      exact congrArg (p.1 :: ·) (rawBlocks_eq (by omega) (by omega))

theorem raws_dropWhile (cs : List Char) : raws (cs.dropWhile isGap) = raws cs := by
  rw [raws_eq, nextRaw_dropWhile, ← raws_eq]

theorem rawBlocks_ended (h : Ended cs ds) (room : Nat) : rawBlocks room cs = rawBlocks room ds := by
  induction room generalizing cs ds with
  | zero => rfl
  | succ room ih =>
      rw [rawBlocks, rawBlocks]
      rcases nextRaw_ended h with ⟨hc, hd⟩ | ⟨r, rest, rest', hc, hd, rests⟩
      · rw [hc, hd]
      · rw [hc, hd]
        exact congrArg (r :: ·) (ih rests)

theorem raws_ended (h : Ended cs ds) : raws cs = raws ds := by
  have longer : cs.length ≤ ds.length := by
    rcases h with rfl | rfl <;> simp
  calc raws cs
      = rawBlocks ds.length cs := rawBlocks_eq (by omega) longer
    _ = raws ds := rawBlocks_ended h ds.length

theorem blocks?_eq (s : String) : blocks? s = (raws s.toList).mapM Raw.block? := rfl

theorem blocks?_ended {t : String} (h : Ended s.toList t.toList) : blocks? s = blocks? t := by
  rw [blocks?_eq, blocks?_eq, raws_ended h]

theorem first?_ended {t : String} (h : Ended s.toList t.toList) : first? s = first? t := by
  rw [first?, first?]
  rcases nextRaw_ended h with ⟨hs, ht⟩ | ⟨r, rest, rest', hs, ht, -⟩
  · rw [hs, ht]
  · rw [hs, ht]
    rfl

def written (ls : List (List Char)) : List Char := ls.flatMap (· ++ ['\n'])

variable {l : List Char} {ls : List (List Char)}

theorem written_cons (l : List Char) (ls : List (List Char)) :
    written (l :: ls) = l ++ '\n' :: written ls := by
  simp [written]

theorem not_mem_written (ne : c ≠ '\n') (free : ∀ l ∈ ls, c ∉ l) : c ∉ written ls := by
  intro mem
  obtain ⟨l, hl, hc⟩ := List.mem_flatMap.1 mem
  rcases List.mem_append.1 hc with hc | hc
  · exact free l hl hc
  · exact ne (List.mem_singleton.1 hc)

theorem joined_lines (ls : List (List Char)) : Text.joined '\n' (ls ++ [[]]) = written ls := by
  induction ls with
  | nil => rfl
  | cons l ls ih =>
      obtain ⟨p, ps, later⟩ := List.exists_cons_of_ne_nil (l := ls ++ [[]]) (by simp)
      rw [written_cons, List.cons_append, later, Text.joined, ← later, ih]
      simp

theorem lines_written (free : ∀ l ∈ ls, '\n' ∉ l) : lines (written ls) = ls := by
  have pieces : Text.pieces '\n' (written ls) = ls ++ [[]] := by
    rw [← joined_lines]
    refine Text.pieces_joined (by simp) ?_
    intro l hl
    rcases List.mem_append.1 hl with hl | hl
    · exact free l hl
    · rw [List.mem_singleton.1 hl]
      exact List.not_mem_nil
  simp [lines, pieces]

theorem cut_blankLine (free : ∀ l ∈ ls, '\n' ∉ l) (nonempty : [] ∉ ls) :
    cut ['\n', '\n'] (written ls) = none := by
  suffices passed : ∀ before, cutFrom ['\n', '\n'] ['\n', '\n'] before (written ls) = none from
    passed []
  induction ls with
  | nil => exact fun before => cutFrom_nil _ _ before
  | cons l ls ih =>
      obtain ⟨first, others⟩ := List.forall_mem_cons.1 free
      have ih := ih others (List.not_mem_of_not_mem_cons nonempty)
      intro before
      rw [written_cons, cutFrom_free first, cutFrom_cons, if_neg (by simp), if_neg (by simp)]
      cases ls with
      | nil => exact cutFrom_nil _ _ _
      | cons l' ls =>
          cases l' with
          | nil => simp at nonempty
          | cons c l' =>
              -- The next line starts with another character, so that the search starts over.
              have ne : c ≠ '\n' := by
                rintro rfl
                exact others _ List.mem_cons_self List.mem_cons_self
              have later := ih ('\n' :: (l.reverse ++ before))
              rw [written_cons, List.cons_append, cutFrom_cons, if_pos ne] at later ⊢
              exact later

theorem splitHeaders_written (free : ∀ l ∈ ls, '\n' ∉ l ∧ '\r' ∉ l) (nonempty : [] ∉ ls) :
    splitHeaders (written ls) = ([], written ls) := by
  have noReturn : '\r' ∉ written ls := not_mem_written (by decide) fun l hl => (free l hl).2
  rw [splitHeaders, cut_blankLine (fun l hl => (free l hl).1) nonempty, cut_of_free noReturn]
  rfl

theorem isBlank_of_isGap (gap : isGap c = true) : Text.isBlank c = true := by
  simp only [isGap, Bool.or_eq_true, decide_eq_true_eq] at gap
  rcases gap with ((rfl | rfl) | rfl) | rfl <;> rfl

theorem rows_eq {data : List Char} {room : Nat} (h : data.length ≤ room) :
    ∃ ls, rows room data = written ls ∧ ls.flatten = data ∧ [] ∉ ls := by
  induction room generalizing data with
  | zero =>
      obtain rfl : data = [] := List.length_eq_zero_iff.1 (by omega)
      exact ⟨[], rfl, rfl, List.not_mem_nil⟩
  | succ room ih =>
      cases data with
      | nil => exact ⟨[], rfl, rfl, List.not_mem_nil⟩
      | cons c cs =>
          have shorter : ((c :: cs).drop 64).length ≤ room := by
            rw [List.length_drop]
            omega
          obtain ⟨ls, later, whole, nonempty⟩ := ih shorter
          refine ⟨(c :: cs).take 64 :: ls, ?_, ?_, ?_⟩
          · rw [rows, later, written_cons]
            simp
          · rw [List.flatten_cons, whole, List.take_append_drop]
          · simp [nonempty]

theorem rows_encode (bytes : List UInt8) :
    ∃ ls, rows (Base64.encode bytes).length (Base64.encode bytes) = written ls ∧
      ls.flatten = Base64.encode bytes ∧ [] ∉ ls ∧ ∀ l ∈ ls, '-' ∉ l ∧
      ∀ c ∈ l, Text.isBlank c = false := by
  obtain ⟨ls, same, whole, nonempty⟩ := rows_eq (Nat.le_refl (Base64.encode bytes).length)
  refine ⟨ls, same, whole, nonempty, fun l hl => ?_⟩
  have part : ∀ c ∈ l, c ∈ Base64.encode bytes := fun c hc => whole ▸ List.mem_flatten_of_mem hl hc
  exact ⟨fun dash => Base64.dash_not_mem_encode bytes (part _ dash),
    fun c hc => Base64.isBlank_encode bytes c (part c hc)⟩

def raw (b : Block) : Raw where
  beginLabel := b.label.toList
  headers := []
  data := rows (Base64.encode b.contents).length (Base64.encode b.contents)
  endLabel := b.label.toList

theorem not_mem_of_plain (plain : ∀ c ∈ l, Text.isBlank c = false) (blank : Text.isBlank c = true) :
    c ∉ l := by
  intro mem
  rw [plain c mem] at blank
  cases blank

theorem block?_raw (named : b.label ≠ "") : (raw b).block? = some b := by
  obtain ⟨ls, same, whole, nonempty, plain⟩ := rows_encode b.contents
  have data : (lines (raw b).data).flatMap Text.trimmed = Base64.encode b.contents := by
    have all : lines (raw b).data = ls := by
      rw [raw, same]
      exact lines_written fun l hl => not_mem_of_plain (plain l hl).2 (by decide)
    have each : ls.map Text.trimmed = ls.map id :=
      List.map_congr_left fun l hl => Text.trimmed_eq_self (plain l hl).2
    rw [all, List.flatMap_def, each, List.map_id, whole]
  have read : Base64.decodeText (Base64.encode b.contents) = .ok b.contents := by
    rw [Base64.decodeText, Base64.utf8_encode, Base64.decode_wire]
  have headers : (lines (raw b).headers).all (·.contains ':') = true := rfl
  have labels : ¬((raw b).beginLabel.isEmpty = true ∨ (raw b).beginLabel ≠ (raw b).endLabel) := by
    simpa [raw] using named
  rw [Raw.block?, if_neg labels, headers, data, read]
  simp [raw]

theorem cut_written (nonempty : [] ∉ ls) (dashless : '-' ∉ written ls)
    (plain : ∀ l ∈ ls, ∀ c ∈ l, isGap c = false) (rest : List Char) :
    cut "-----END ".toList
      (('\n' :: (written ls ++ ("-----END ".toList ++ rest))).dropWhile isGap) =
      some (written ls, rest) := by
  have start : ('\n' :: (written ls ++ ("-----END ".toList ++ rest))).dropWhile isGap =
      written ls ++ ("-----END ".toList ++ rest) := by
    rw [List.dropWhile_cons_of_pos (by decide)]
    cases ls with
    | nil => rfl
    | cons l ls =>
        cases l with
        | nil => simp at nonempty
        | cons c l =>
            have first : ¬isGap c = true := by
              simp [plain (c :: l) List.mem_cons_self c List.mem_cons_self]
            rw [written_cons, List.cons_append, List.cons_append, List.dropWhile_cons_of_neg first]
  rw [start]
  exact cut_append rfl dashless rest

theorem toList_encode (b : Block) (t : List Char) :
    (encode b).toList ++ t = "-----BEGIN ".toList ++
      (b.label.toList ++
        ("-----".toList ++ '\n' ::
          ((raw b).data ++
            ("-----END ".toList ++ (b.label.toList ++ ("-----".toList ++ '\n' :: t)))))) := by
  have closing : "-----\n".toList = "-----".toList ++ ['\n'] := by simp
  unfold encode
  simp only [raw, String.toList_ofList, closing, List.append_assoc, List.cons_append,
    List.nil_append]

theorem nextRaw_encode (dashless : '-' ∉ b.label.toList) (t : List Char) :
    nextRaw ((encode b).toList ++ t) = some (raw b, t.dropWhile isGap) := by
  obtain ⟨ls, data, -, nonempty, plain⟩ := rows_encode b.contents
  have noDash : '-' ∉ written ls := not_mem_written (by decide) fun l hl => (plain l hl).1
  have noGap : ∀ l ∈ ls, ∀ c ∈ l, isGap c = false := by
    intro l hl c hc
    cases gap : isGap c with
    | false => rfl
    | true => exact absurd hc (not_mem_of_plain (plain l hl).2 (isBlank_of_isGap gap))
  have noReturn : ∀ l ∈ ls, '\n' ∉ l ∧ '\r' ∉ l := fun l hl =>
    ⟨not_mem_of_plain (plain l hl).2 (by decide), not_mem_of_plain (plain l hl).2 (by decide)⟩
  have same : (raw b).data = written ls := data
  rw [toList_encode, same]
  exact nextRaw_eq_some_iff.2 ⟨[], _, _, written ls, _, _, cut_append rfl List.not_mem_nil _,
    cut_append rfl dashless _, cut_written nonempty noDash noGap _, cut_append rfl dashless _,
    (splitHeaders_written noReturn nonempty).trans (congrArg (([] : List Char), ·) same.symm),
    List.dropWhile_cons_of_pos (by decide)⟩

/-- What follows a written block is read as if it stood alone. -/
theorem blocks?_encode_append (named : b.label ≠ "") (dashless : '-' ∉ b.label.toList)
    (s : String) : blocks? (encode b ++ s) = (blocks? s).map (b :: ·) := by
  have first : raws ((encode b).toList ++ s.toList) = raw b :: raws s.toList := by
    rw [raws_eq, nextRaw_encode dashless]
    exact congrArg (raw b :: ·) (raws_dropWhile s.toList)
  rw [blocks?_eq, blocks?_eq, String.toList_append, first, List.mapM_cons, block?_raw named]
  cases (raws s.toList).mapM Raw.block? <;> rfl

theorem blocks?_encode (named : b.label ≠ "") (dashless : '-' ∉ b.label.toList) :
    blocks? (encode b) = some [b] := by
  have alone := blocks?_encode_append named dashless ""
  rwa [String.append_empty] at alone

end HollowNode.Pem
