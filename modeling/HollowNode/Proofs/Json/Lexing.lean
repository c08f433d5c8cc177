import HollowNode.Json.Token
import HollowNode.Json.Writer

namespace HollowNode.Json.Token

variable {cs ds rest : List Char} {ts us : List Token} {t : Token} {units : List Unit16}
  {negative : Bool}

/-- A text before which a lexeme ends: there is nothing left, or a punctuation mark. -/
inductive Closing : List Char → Prop
  | nil : Closing []
  | comma (cs : List Char) : Closing (',' :: cs)
  | colon (cs : List Char) : Closing (':' :: cs)
  | closeArray (cs : List Char) : Closing (']' :: cs)
  | closeObject (cs : List Char) : Closing ('}' :: cs)

theorem takeWhile_closing (closing : Closing ds) (cs : List Char) :
    (cs ++ ds).takeWhile isDigit = cs.takeWhile isDigit := by
  induction cs with
  | nil => cases closing <;> rfl
  | cons c cs ih =>
      rw [List.cons_append, List.takeWhile_cons, List.takeWhile_cons, ih]

theorem dropWhile_closing (closing : Closing ds) (cs : List Char) :
    (cs ++ ds).dropWhile isDigit = cs.dropWhile isDigit ++ ds := by
  induction cs with
  | nil => cases closing <;> rfl
  | cons c cs ih =>
      rw [List.cons_append, List.dropWhile_cons, List.dropWhile_cons, ih]
      split <;> rfl

theorem string_escape {e c : Char} (he : simpleEscape? e = some c) (cs : List Char) :
    string ('\\' :: e :: cs) = (string cs).map fun p => (.char c :: p.1, p.2) := by
  rw [string.eq_3 e cs (by rintro a b c d cs rfl -; cases he), he]
  cases string cs <;> rfl

theorem string_plain {c : Char} (quote : c ≠ '"') (backslash : c ≠ '\\') (visible : 0x20 ≤ c.toNat)
    (cs : List Char) : string (c :: cs) = (string cs).map fun p => (.char c :: p.1, p.2) := by
  rw [string.eq_4 c cs quote (fun _ _ _ _ _ h _ => backslash h) (fun _ _ h _ => backslash h),
    if_neg (Nat.not_lt.2 visible)]
  cases string cs <;> rfl

theorem string_unit {a b c d : Char} {n : Nat} (hn : unit? a b c d = some n) (cs : List Char) :
    string ('\\' :: 'u' :: a :: b :: c :: d :: cs) = (string cs).map fun p =>
      (.unit n :: p.1, p.2) := by
  rw [string, hn]
  cases string cs <;> rfl

theorem string_append (h : string cs = some (units, rest)) (ds : List Char) :
    string (cs ++ ds) = some (units, rest ++ ds) := by
  fun_induction string cs generalizing units rest with
  | case1 =>
      cases h
      rfl
  | case2 a b c d cs ih =>
      simp only [Option.bind_eq_bind, Option.bind_eq_some_iff] at h
      obtain ⟨n, hn, ⟨us, rest⟩, later, ⟨⟩⟩ := h
      simp [string_unit hn, ih later]
  | case3 e cs other ih =>
      simp only [Option.bind_eq_bind, Option.bind_eq_some_iff] at h
      obtain ⟨c, hc, ⟨us, rest⟩, later, ⟨⟩⟩ := h
      simp [string_escape hc, ih later]
  | case4 | case6 => cases h
  | case5 c cs quote _ escape visible ih =>
      simp only [Option.bind_eq_bind, Option.bind_eq_some_iff] at h
      obtain ⟨⟨us, rest⟩, later, ⟨⟩⟩ := h
      have backslash : c ≠ '\\' := by
        rintro rfl
        cases cs with
        | nil => cases later
        | cons e cs => exact escape e cs rfl rfl
      simp [string_plain quote backslash (Nat.not_lt.1 visible), ih later]

theorem fraction_append (closing : Closing ds) {frac : List Char}
    (h : fraction cs = some (frac, rest)) : fraction (cs ++ ds) = some (frac, rest ++ ds) := by
  unfold fraction at h
  split at h
  next digits =>
    simp only [List.cons_append, fraction, takeWhile_closing closing,
      dropWhile_closing closing] at h ⊢
    split at h
    next none => cases h
    next some =>
      rw [if_neg some]
      cases h
      rfl
  next other =>
    cases h
    cases cs with
    | nil => cases closing <;> rfl
    | cons c cs =>
        rw [List.cons_append, fraction]
        rintro d heq
        exact other cs (by rw [(List.cons.inj heq).1])

theorem exponentDigits_append (closing : Closing ds) {mark digits : List Char}
    (h : exponentDigits mark cs = some (digits, rest)) :
    exponentDigits mark (cs ++ ds) = some (digits, rest ++ ds) := by
  simp only [exponentDigits, takeWhile_closing closing, dropWhile_closing closing] at h ⊢
  split at h
  next none => cases h
  next some =>
    rw [if_neg some]
    cases h
    rfl

theorem exponent_append (closing : Closing ds) {exp : List Char}
    (h : exponent cs = some (exp, rest)) : exponent (cs ++ ds) = some (exp, rest ++ ds) := by
  cases cs with
  | nil =>
      cases h
      cases closing <;> rfl
  | cons c cs =>
      by_cases mark : c = 'e' ∨ c = 'E'
      · simp only [List.cons_append, exponent, if_pos mark] at h ⊢
        split at h
        next => exact exponentDigits_append closing h
        next => exact exponentDigits_append closing h
        next plus minus =>
          cases cs with
          | nil => cases h
          | cons d cs =>
              rw [List.cons_append]
              split
              next heq => exact absurd (congrArg (· :: cs) (List.cons.inj heq).1) (plus cs)
              next heq => exact absurd (congrArg (· :: cs) (List.cons.inj heq).1) (minus cs)
              next => exact exponentDigits_append closing h
      · simp only [List.cons_append, exponent, if_neg mark] at h ⊢
        cases h
        rfl

theorem number_append (closing : Closing ds) (h : number negative cs = some (t, rest)) :
    number negative (cs ++ ds) = some (t, rest ++ ds) := by
  unfold number at h ⊢
  rw [takeWhile_closing closing, dropWhile_closing closing]
  by_cases whole : isWhole (cs.takeWhile isDigit) = true
  · simp only [whole, Bool.not_true, Bool.false_eq_true, if_false, Option.bind_eq_bind,
      Option.bind_eq_some_iff] at h ⊢
    obtain ⟨⟨frac, cs⟩, hfrac, ⟨exp, cs⟩, hexp, ⟨⟩⟩ := h
    exact ⟨(frac, _), fraction_append closing hfrac, (exp, _), exponent_append closing hexp, rfl⟩
  · simp [whole] at h

theorem exists_digit_of_number (h : number negative cs = some (t, rest)) :
    ∃ c tail, cs = c :: tail ∧ isDigit c = true := by
  cases cs with
  | nil => cases h
  | cons c cs =>
      refine ⟨c, cs, rfl, ?_⟩
      cases digit : isDigit c with
      | true => rfl
      | false => simp [number, digit, isWhole] at h

theorem next_of_digit {c : Char} (digit : isDigit c = true) (cs : List Char) :
    next (c :: cs) = number false (c :: cs) := by
  refine next.eq_12 _ ?_ ?_ ?_ ?_ ?_ ?_ ?_ ?_ ?_ ?_ ?_
  all_goals
    intro rest heq
    rw [(List.cons.inj heq).1] at digit
    exact absurd digit (by decide)

theorem next_append (closing : Closing ds) (h : next cs = some (t, rest)) :
    next (cs ++ ds) = some (t, rest ++ ds) := by
  -- A string, a number with a sign and one without it; any other lexeme is always the same text.
  unfold next at h
  split at h
  case h_7 cs =>
    obtain ⟨⟨units, tail⟩, text, ⟨⟩⟩ := Option.map_eq_some_iff.1 h
    simp [next, string_append text]
  case h_11 => exact number_append closing h
  case h_12 =>
    obtain ⟨c, tail, rfl, digit⟩ := exists_digit_of_number h
    rw [List.cons_append, next_of_digit digit]
    exact number_append closing h
  all_goals
    cases h
    rfl

theorem length_string (h : string cs = some (units, rest)) : rest.length < cs.length := by
  fun_induction string cs generalizing units rest with
  | case1 =>
      cases h
      exact Nat.lt_succ_self _
  | case2 a b c d cs ih =>
      simp only [Option.bind_eq_bind, Option.bind_eq_some_iff] at h
      obtain ⟨n, hn, ⟨us, rest⟩, later, ⟨⟩⟩ := h
      have shorter := ih later
      simp only [List.length_cons]
      omega
  | case3 e cs other ih =>
      simp only [Option.bind_eq_bind, Option.bind_eq_some_iff] at h
      obtain ⟨c, hc, ⟨us, rest⟩, later, ⟨⟩⟩ := h
      have shorter := ih later
      simp only [List.length_cons]
      omega
  | case4 | case6 => cases h
  | case5 c cs quote _ escape visible ih =>
      simp only [Option.bind_eq_bind, Option.bind_eq_some_iff] at h
      obtain ⟨⟨us, rest⟩, later, ⟨⟩⟩ := h
      exact Nat.lt_succ_of_lt (ih later)

theorem length_dropWhile (cs : List Char) : (cs.dropWhile isDigit).length ≤ cs.length :=
  (List.dropWhile_sublist _).length_le

theorem length_fraction {frac : List Char} (h : fraction cs = some (frac, rest)) :
    rest.length ≤ cs.length := by
  unfold fraction at h
  split at h
  next digits =>
    simp only at h
    split at h
    next => cases h
    next =>
      cases h
      exact Nat.le_succ_of_le (length_dropWhile digits)
  next =>
    cases h
    exact Nat.le_refl _

theorem length_exponentDigits {mark digits : List Char}
    (h : exponentDigits mark cs = some (digits, rest)) : rest.length ≤ cs.length := by
  simp only [exponentDigits] at h
  split at h
  next => cases h
  next =>
    cases h
    exact length_dropWhile cs

theorem length_exponent {exp : List Char} (h : exponent cs = some (exp, rest)) :
    rest.length ≤ cs.length := by
  cases cs with
  | nil =>
      cases h
      exact Nat.le_refl _
  | cons c cs =>
      simp only [exponent] at h
      split at h
      next =>
        split at h
        next => exact Nat.le_succ_of_le (Nat.le_succ_of_le (length_exponentDigits h))
        next => exact Nat.le_succ_of_le (Nat.le_succ_of_le (length_exponentDigits h))
        next => exact Nat.le_succ_of_le (length_exponentDigits h)
      next =>
        cases h
        exact Nat.le_refl _

theorem length_number (h : number negative cs = some (t, rest)) : rest.length < cs.length := by
  obtain ⟨c, tail, rfl, digit⟩ := exists_digit_of_number h
  have whole : isWhole ((c :: tail).takeWhile isDigit) = true := by
    cases whole : isWhole ((c :: tail).takeWhile isDigit) with
    | true => rfl
    | false => simp [number, whole] at h
  simp only [number, whole, Bool.not_true, Bool.false_eq_true, if_false, Option.bind_eq_bind,
    Option.bind_eq_some_iff, List.dropWhile_cons, digit, if_true] at h
  obtain ⟨⟨frac, afterFraction⟩, hfrac, ⟨exp, rest⟩, hexp, ⟨⟩⟩ := h
  calc rest.length ≤ afterFraction.length := length_exponent hexp
    _ ≤ (tail.dropWhile isDigit).length := length_fraction hfrac
    _ < (c :: tail).length := Nat.lt_succ_of_le (length_dropWhile tail)

theorem length_next (h : next cs = some (t, rest)) : rest.length < cs.length := by
  unfold next at h
  split at h
  case h_7 cs =>
    obtain ⟨⟨units, tail⟩, text, ⟨⟩⟩ := Option.map_eq_some_iff.1 h
    exact Nat.lt_succ_of_lt (length_string text)
  case h_11 => exact Nat.lt_succ_of_lt (length_number h)
  case h_12 => exact length_number h
  all_goals
    cases h
    simp only [List.length_cons]
    omega

/-- A text consists of these lexemes, with blanks between them. -/
inductive Lexes : List Char → List Token → Prop
  | done {cs : List Char} (blank : cs.dropWhile isSpace = []) : Lexes cs []
  | next {cs tail rest : List Char} {c : Char} {t : Token} {ts : List Token}
      (starts : cs.dropWhile isSpace = c :: tail) (first : Token.next (c :: tail) = some (t, rest))
      (later : Lexes rest ts) : Lexes cs (t :: ts)

theorem lexes_of_lexemes {room : Nat} (h : lexemes room cs = some ts) : Lexes cs ts := by
  induction room generalizing cs ts with
  | zero =>
      simp only [lexemes] at h
      split at h
      next blank =>
        cases h
        exact .done (List.isEmpty_iff.1 blank)
      next => cases h
  | succ room ih =>
      simp only [lexemes] at h
      split at h
      next blank =>
        cases h
        exact .done blank
      next c tail starts =>
        simp only [Option.bind_eq_bind, Option.bind_eq_some_iff] at h
        obtain ⟨⟨t, rest⟩, first, ts, later, ⟨⟩⟩ := h
        exact .next starts first (ih later)

theorem Lexes.lexemes {room : Nat} (lexes : Lexes cs ts) (enough : cs.length ≤ room) :
    lexemes room cs = some ts := by
  induction lexes generalizing room with
  | @done cs blank => cases room <;> simp [Token.lexemes, blank]
  | @next cs tail rest c t ts starts first later ih =>
      have shorter := length_next first
      have suffix : (cs.dropWhile isSpace).length ≤ cs.length :=
        (List.dropWhile_sublist _).length_le
      rw [starts] at suffix
      cases room with
      | zero => exact absurd (Nat.le_trans suffix enough) (Nat.not_succ_le_zero _)
      | succ room =>
          have fits : rest.length ≤ room :=
            Nat.le_of_lt_succ (Nat.lt_of_lt_of_le shorter (Nat.le_trans suffix enough))
          simp [Token.lexemes, starts, first, ih fits]

theorem all_eq_some_iff : all cs = some ts ↔ Lexes cs ts :=
  ⟨lexes_of_lexemes, fun lexes => lexes.lexemes (Nat.le_refl _)⟩

theorem Lexes.of_blank (blank : cs.dropWhile isSpace = []) (lexes : Lexes ds us) :
    Lexes (cs ++ ds) us := by
  have drops : (cs ++ ds).dropWhile isSpace = ds.dropWhile isSpace := by
    simp [List.dropWhile_append, blank]
  cases lexes with
  | done none => exact .done (drops.trans none)
  | next starts first later => exact .next (drops.trans starts) first later

theorem Lexes.append (lexes : Lexes cs ts) (closing : Closing ds) (later : Lexes ds us) :
    Lexes (cs ++ ds) (ts ++ us) := by
  induction lexes with
  | done blank => exact .of_blank blank later
  | next starts first _ ih =>
      refine .next ?_ (next_append closing first) ih
      simp [List.dropWhile_append, starts]

theorem Lexes.cons {c : Char} (space : isSpace c = false)
    (first : Token.next (c :: cs) = some (t, rest)) (later : Lexes rest ts) :
    Lexes (c :: cs) (t :: ts) :=
  .next (List.dropWhile_cons_of_neg (by simp [space])) first later

theorem lexes_nil : Lexes [] [] := .done rfl

theorem text?_unit {n : Nat} (hn : n < 0xD800) (units : List Unit16) :
    text? (.unit n :: units) = (text? units).map (Char.ofNat n :: ·) := by
  have high : ¬(0xD800 ≤ n ∧ n < 0xDC00) := by omega
  have low : ¬(0xDC00 ≤ n ∧ n < 0xE000) := by omega
  have whole : ¬(0xD800 ≤ n ∧ n < 0xE000) := by omega
  rcases units with _ | ⟨_ | m, units⟩ <;> simp only [text?, if_neg high, if_neg low, if_neg whole]

theorem unit?_control :
    ∀ n < 0x20, unit? '0' '0' (hexDigit (n / 16)) (hexDigit (n % 16)) = some n := by decide

theorem exists_unit_of_escape (c : Char) : ∃ u,
    (∀ cs, string (escape c ++ cs) = (string cs).map fun p => (u :: p.1, p.2)) ∧
      ∀ units, text? (u :: units) = (text? units).map (c :: ·) := by
  by_cases named : ∃ e, escape c = ['\\', e] ∧ simpleEscape? e = some c
  · obtain ⟨e, escaped, he⟩ := named
    exact ⟨.char c, fun cs => by rw [escaped]; exact string_escape he cs, fun _ => rfl⟩
  -- The quote, the backslash and five of the control characters have names.
  have other {d e : Char} (escaped : escape d = ['\\', e]) (he : simpleEscape? e = some d) :
      c ≠ d := by
    rintro rfl
    exact named ⟨e, escaped, he⟩
  have quote : c ≠ '"' := other rfl rfl
  have backslash : c ≠ '\\' := other rfl rfl
  have unnamed : escape c = if c.toNat < 0x20 then
      ['\\', 'u', '0', '0', hexDigit (c.toNat / 16), hexDigit (c.toNat % 16)] else [c] := by
    unfold escape
    rw [if_neg quote, if_neg backslash, if_neg (other rfl rfl), if_neg (other rfl rfl),
      if_neg (other rfl rfl), if_neg (other rfl rfl), if_neg (other rfl rfl)]
  rw [unnamed]
  split
  next control =>
    refine ⟨.unit c.toNat, string_unit (unit?_control _ control), fun units => ?_⟩
    rw [text?_unit (by omega), Char.ofNat_toNat]
  next visible =>
    exact ⟨.char c, string_plain quote backslash (Nat.le_of_not_lt visible), fun _ => rfl⟩

theorem exists_units_of_escape (text tail : List Char) : ∃ units,
    string (text.flatMap escape ++ '"' :: tail) = some (units, tail) ∧ text? units = some text := by
  induction text with
  | nil => exact ⟨[], rfl, rfl⟩
  | cons c text ih =>
      obtain ⟨units, hunits, htext⟩ := ih
      obtain ⟨u, hu, hc⟩ := exists_unit_of_escape c
      refine ⟨u :: units, ?_, by rw [hc, htext]; rfl⟩
      rw [List.flatMap_cons, List.append_assoc, hu, hunits]
      rfl

theorem lexes_quoted (s : String) : Lexes (quoted s) [.str (some s.toList)] := by
  obtain ⟨units, hunits, htext⟩ := exists_units_of_escape s.toList []
  have first : next (quoted s) = some (.str (some s.toList), []) := by
    simp [quoted, next, hunits, htext]
  exact .cons (by decide) first lexes_nil

end HollowNode.Json.Token
