import HollowNode.Text.Utf8

namespace HollowNode.Text.Utf8

variable {a b : UInt8} {n : Nat} {ch : Char} {cs : List Char} {bytes : List UInt8}

theorem bits_five (b : UInt8) : bits b 0x1F = b.toNat % 32 := by
  rw [bits, UInt8.toNat_and]
  exact Nat.and_two_pow_sub_one_eq_mod _ 5

theorem bits_six (b : UInt8) : bits b 0x3F = b.toNat % 64 := by
  rw [bits, UInt8.toNat_and]
  exact Nat.and_two_pow_sub_one_eq_mod _ 6

theorem bits_four (b : UInt8) : bits b 0x0F = b.toNat % 16 := by
  rw [bits, UInt8.toNat_and]
  exact Nat.and_two_pow_sub_one_eq_mod _ 4

theorem bits_three (b : UInt8) : bits b 0x07 = b.toNat % 8 := by
  rw [bits, UInt8.toNat_and]
  exact Nat.and_two_pow_sub_one_eq_mod _ 3

theorem isTail_iff : isTail b = true ↔ 0x80 ≤ b.toNat ∧ b.toNat ≤ 0xBF := by
  simp [isTail, UInt8.le_iff_toNat_le]

theorem width_eq (b : UInt8) : width b =
    if b.toNat ≤ 0x7F then 1
    else if 0xC2 ≤ b.toNat ∧ b.toNat ≤ 0xDF then 2
    else if 0xE0 ≤ b.toNat ∧ b.toNat ≤ 0xEF then 3
    else if 0xF0 ≤ b.toNat ∧ b.toNat ≤ 0xF4 then 4
    else 0 := by
  simp [width, UInt8.le_iff_toNat_le]

theorem width_eq_one_iff : width b = 1 ↔ b.toNat ≤ 0x7F := by
  rw [width_eq]
  repeat' split
  all_goals omega

theorem width_eq_two_iff : width b = 2 ↔ 0xC2 ≤ b.toNat ∧ b.toNat ≤ 0xDF := by
  rw [width_eq]
  repeat' split
  all_goals omega

theorem width_eq_three_iff : width b = 3 ↔ 0xE0 ≤ b.toNat ∧ b.toNat ≤ 0xEF := by
  rw [width_eq]
  repeat' split
  all_goals omega

theorem width_eq_four_iff : width b = 4 ↔ 0xF0 ≤ b.toNat ∧ b.toNat ≤ 0xF4 := by
  rw [width_eq]
  repeat' split
  all_goals omega

theorem isSecond_iff : isSecond a b = true ↔
    0x80 ≤ b.toNat ∧ b.toNat ≤ 0xBF ∧ (a.toNat = 0xE0 → 0xA0 ≤ b.toNat) ∧
    (a.toNat = 0xED → b.toNat ≤ 0x9F) ∧
      (a.toNat = 0xF0 → 0x90 ≤ b.toNat) ∧ (a.toNat = 0xF4 → b.toNat ≤ 0x8F) := by
  simp only [isSecond, isTail, UInt8.le_iff_toNat_le, ← UInt8.toNat_inj]
  repeat' split
  all_goals
    simp only [Bool.and_eq_true, decide_eq_true_eq, UInt8.reduceToNat] at *
    omega

/-- The bytes that are read as a character. -/
inductive Sequence : Char → List UInt8 → Prop
  | one {a : UInt8} (first : width a = 1) : Sequence (Char.ofNat a.toNat) [a]
  | two {a b : UInt8} (first : width a = 2) (tail : isTail b) :
      Sequence (Char.ofNat (bits a 0x1F * 64 + bits b 0x3F)) [a, b]
  | three {a b c : UInt8} (first : width a = 3) (second : isSecond a b) (tail : isTail c) :
      Sequence (Char.ofNat ((bits a 0x0F * 64 + bits b 0x3F) * 64 + bits c 0x3F)) [a, b, c]
  | four {a b c d : UInt8} (first : width a = 4) (second : isSecond a b) (third : isTail c)
      (tail : isTail d) :
      Sequence
        (Char.ofNat (((bits a 0x07 * 64 + bits b 0x3F) * 64 + bits c 0x3F) * 64 + bits d 0x3F))
        [a, b, c, d]

theorem toNat_ofNat (h : n < 0xD800 ∨ 0xDFFF < n ∧ n < 0x110000) :
    (Char.ofNat n).val.toNat = n := by
  rw [Char.ofNat, dif_pos h]
  rfl

theorem Sequence.eq (h : Sequence ch bytes) : bytes = String.utf8EncodeChar ch := by
  cases h with
  | one first =>
      rw [width_eq_one_iff] at first
      simp (disch := omega) only [String.utf8EncodeChar, toNat_ofNat, if_pos, UInt8.ofNat_toNat]
  | two first tail =>
      rw [width_eq_two_iff] at first
      rw [isTail_iff] at tail
      simp (disch := omega) only [String.utf8EncodeChar, bits_five, bits_six, toNat_ofNat,
        if_pos, if_neg, List.cons.injEq, ← UInt8.toNat_inj, UInt8.toNat_ofNat', and_true]
      omega
  | three first second tail =>
      rw [width_eq_three_iff] at first
      rw [isSecond_iff] at second
      rw [isTail_iff] at tail
      simp (disch := omega) only [String.utf8EncodeChar, bits_four, bits_six, toNat_ofNat,
        if_pos, if_neg, List.cons.injEq, ← UInt8.toNat_inj, UInt8.toNat_ofNat', and_true]
      omega
  | four first second third tail =>
      rw [width_eq_four_iff] at first
      rw [isSecond_iff] at second
      rw [isTail_iff] at third tail
      simp (disch := omega) only [String.utf8EncodeChar, bits_three, bits_six, toNat_ofNat, if_neg,
        List.cons.injEq, ← UInt8.toNat_inj, UInt8.toNat_ofNat', and_true]
      omega

theorem decodeFrom_append (h : Sequence ch bytes) (i : Nat) (rest : List UInt8) :
    decodeFrom i (bytes ++ rest) = (decodeFrom (i + bytes.length) rest).map (ch :: ·) := by
  cases h with
  | one first => simp [decodeFrom, first]
  | two first tail => simp [decodeFrom, first, tail]
  | three first second tail => simp [decodeFrom, first, second, tail]
  | four first second third tail => simp [decodeFrom, first, second, third, tail]

theorem sequence_utf8EncodeChar (ch : Char) : Sequence ch (String.utf8EncodeChar ch) := by
  have valid : ch.val.toNat < 0xD800 ∨ 0xDFFF < ch.val.toNat ∧ ch.val.toNat < 0x110000 := ch.valid
  have same {n : Nat} {bytes : List UInt8} (h : Sequence (Char.ofNat n) bytes)
      (hn : n = ch.val.toNat) : Sequence ch bytes := by
    subst hn
    exact (Char.ofNat_toNat ch) ▸ h
  simp only [String.utf8EncodeChar]
  split
  next one =>
    refine same (.one ?_) ?_
    · rw [width_eq_one_iff, UInt8.toNat_ofNat']
      omega
    · rw [UInt8.toNat_ofNat']
      omega
  next =>
    split
    next two =>
      refine same (.two ?_ ?_) ?_
      · rw [width_eq_two_iff, UInt8.toNat_ofNat']
        omega
      · rw [isTail_iff, UInt8.toNat_ofNat']
        omega
      · rw [bits_five, bits_six, UInt8.toNat_ofNat', UInt8.toNat_ofNat']
        omega
    next =>
      split
      next three =>
        refine same (.three ?_ ?_ ?_) ?_
        · rw [width_eq_three_iff, UInt8.toNat_ofNat']
          omega
        · rw [isSecond_iff, UInt8.toNat_ofNat', UInt8.toNat_ofNat']
          omega
        · rw [isTail_iff, UInt8.toNat_ofNat']
          omega
        · simp only [bits_four, bits_six, UInt8.toNat_ofNat']
          omega
      next =>
        refine same (.four ?_ ?_ ?_ ?_) ?_
        · rw [width_eq_four_iff, UInt8.toNat_ofNat']
          omega
        · rw [isSecond_iff, UInt8.toNat_ofNat', UInt8.toNat_ofNat']
          omega
        · rw [isTail_iff, UInt8.toNat_ofNat']
          omega
        · rw [isTail_iff, UInt8.toNat_ofNat']
          omega
        · simp only [bits_three, bits_six, UInt8.toNat_ofNat']
          omega

theorem decodeFrom_encode (i : Nat) (cs : List Char) : decodeFrom i (encode cs) = .ok cs := by
  induction cs generalizing i with
  | nil => rfl
  | cons ch cs ih =>
      rw [encode, List.flatMap_cons, decodeFrom_append (sequence_utf8EncodeChar ch), ← encode, ih]
      rfl

theorem eq_encode_of_decodeFrom {i : Nat} (h : decodeFrom i bytes = .ok cs) :
    bytes = encode cs := by
  have goesOn {ch : Char} {first rest : List UInt8} {i : Nat} (sequence : Sequence ch first)
      (ih : ∀ {cs}, decodeFrom i rest = .ok cs → rest = encode cs) {cs : List Char}
      (h : (decodeFrom i rest).map (ch :: ·) = .ok cs) : first ++ rest = encode cs := by
    cases hrest : decodeFrom i rest with
    | error fault =>
        rw [hrest] at h
        cases h
    | ok more =>
        rw [hrest] at h
        cases h
        rw [encode, List.flatMap_cons, ← sequence.eq, ← encode, ← ih hrest]
  fun_induction decodeFrom i bytes generalizing cs with
  | case1 =>
      cases h
      rfl
  | case2 i a rest first ih => exact goesOn (.one first) ih h
  | case3 i a b rest first tail ih => exact goesOn (.two first tail) ih h
  | case7 i a b c rest first second tail ih =>
      exact goesOn (.three first (by simpa using second) (by simpa using tail)) ih h
  | case11 i a b c d rest first second third tail ih =>
      exact goesOn
        (.four first (by simpa using second) (by simpa using third) (by simpa using tail)) ih h
  | _ => cases h

theorem decode_eq_ok_iff : decode bytes = .ok cs ↔ bytes = encode cs :=
  ⟨eq_encode_of_decodeFrom, fun h => h ▸ decodeFrom_encode 0 cs⟩

end HollowNode.Text.Utf8
