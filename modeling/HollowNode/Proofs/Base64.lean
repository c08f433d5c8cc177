import HollowNode.Base64
import HollowNode.Proofs.Text.Blank

namespace HollowNode.Base64

def symbolByte (n : Nat) : UInt8 := UInt8.ofNat (symbol n).toNat

theorem isBlank_symbol {n : Nat} (h : n < 64) : Text.isBlank (symbol n) = false := by
  have all : ∀ n < 64, Text.isBlank (symbol n) = false := by decide
  exact all n h

theorem utf8_symbol {n : Nat} (h : n < 64) : String.utf8EncodeChar (symbol n) = [symbolByte n] := by
  have all : ∀ n < 64, String.utf8EncodeChar (symbol n) = [symbolByte n] := by decide
  exact all n h

theorem value?_symbolByte {n : Nat} (h : n < 64) : value? (symbolByte n) = some n := by
  have all : ∀ n < 64, value? (symbolByte n) = some n := by decide
  exact all n h

theorem symbolByte_ne_pad {n : Nat} (h : n < 64) : symbolByte n ≠ pad := by
  have all : ∀ n < 64, symbolByte n ≠ pad := by decide
  exact all n h

theorem sextet_symbolByte {n : Nat} (h : n < 64) (offset : Nat) :
    sextet (symbolByte n) offset = .ok n := by
  simp [sextet, value?_symbolByte h]

theorem forall_mem_encode {p : Char → Prop} (symbols : ∀ n < 64, p (symbol n)) (equals : p '=')
    (bytes : List UInt8) : ∀ c ∈ encode bytes, p c := by
  fun_induction encode bytes with
  | case1 => simp
  | case2 a =>
      have ha := a.toNat_lt
      simp (disch := omega) [symbols, equals]
  | case3 a b =>
      have ha := a.toNat_lt
      have hb := b.toNat_lt
      simp (disch := omega) [symbols, equals]
  | case4 a b c rest ih =>
      have ha := a.toNat_lt
      have hb := b.toNat_lt
      have hc := c.toNat_lt
      simp (disch := omega) only [List.forall_mem_cons, symbols, true_and]
      exact ih

theorem isBlank_encode (bytes : List UInt8) : ∀ c ∈ encode bytes, Text.isBlank c = false :=
  forall_mem_encode (fun _ h => isBlank_symbol h) (by decide) bytes

theorem dash_not_mem_encode (bytes : List UInt8) : '-' ∉ encode bytes := by
  have symbols : ∀ n < 64, symbol n ≠ '-' := by decide
  have others : ∀ c ∈ encode bytes, c ≠ '-' := forall_mem_encode symbols (by decide) bytes
  exact fun mem => others '-' mem rfl

def wire : List UInt8 → List UInt8
  | [] => []
  | [a] => [symbolByte (a.toNat / 4), symbolByte (a.toNat % 4 * 16), pad, pad]
  | [a, b] =>
    [symbolByte (a.toNat / 4), symbolByte (a.toNat % 4 * 16 + b.toNat / 16),
      symbolByte (b.toNat % 16 * 4), pad]
  | a :: b :: c :: rest =>
    symbolByte (a.toNat / 4) :: symbolByte (a.toNat % 4 * 16 + b.toNat / 16) ::
      symbolByte (b.toNat % 16 * 4 + c.toNat / 64) :: symbolByte (c.toNat % 64) :: wire rest

theorem utf8_encode (bytes : List UInt8) : Text.Utf8.encode (encode bytes) = wire bytes := by
  have equals : String.utf8EncodeChar '=' = [pad] := by decide
  unfold Text.Utf8.encode
  fun_induction encode bytes with
  | case1 => rfl
  | case2 a =>
      have ha := a.toNat_lt
      simp (disch := omega) [wire, utf8_symbol, equals]
  | case3 a b =>
      have ha := a.toNat_lt
      have hb := b.toNat_lt
      simp (disch := omega) [wire, utf8_symbol, equals]
  | case4 a b c rest ih =>
      have ha := a.toNat_lt
      have hb := b.toNat_lt
      have hc := c.toNat_lt
      simp (disch := omega) [wire, utf8_symbol, ih]

theorem length_wire (bytes : List UInt8) : (wire bytes).length = (bytes.length + 2) / 3 * 4 := by
  fun_induction wire bytes with
  | case1 => rfl
  | case2 => simp
  | case3 => simp
  | case4 a b c rest ih =>
      simp only [List.length_cons, ih]
      omega

theorem ofNat_eq {n : Nat} {a : UInt8} (h : n = a.toNat) : UInt8.ofNat n = a := by
  rw [h, UInt8.ofNat_toNat]

theorem group_eq (a b c : UInt8) : group (a.toNat / 4) (a.toNat % 4 * 16 + b.toNat / 16)
    (b.toNat % 16 * 4 + c.toNat / 64) (c.toNat % 64) = [a, b, c] := by
  have ha := a.toNat_lt
  have hb := b.toNat_lt
  have hc := c.toNat_lt
  rw [group, ofNat_eq (a := a) (by omega), ofNat_eq (a := b) (by omega),
    ofNat_eq (a := c) (by omega)]

theorem decodeLast_one (start : Nat) (a : UInt8) : decodeLast start (wire [a]) = .ok [a] := by
  have ha := a.toNat_lt
  have first : UInt8.ofNat (a.toNat / 4 * 4 + a.toNat % 4 * 16 / 16) = a := ofNat_eq (by omega)
  have symbols : lastGroup start (wire [a]) 0 [] 0 = .ok ([(symbolByte (a.toNat / 4), a.toNat / 4),
      (symbolByte (a.toNat % 4 * 16), a.toNat % 4 * 16)], 2) := by
    simp (disch := omega) [wire, lastGroup, symbolByte_ne_pad, value?_symbolByte]
  have zero : a.toNat % 4 * 16 % 16 = 0 := by omega
  rw [decodeLast, symbols]
  simp only [bind, Except.bind, List.length_cons, List.length_nil, zero, first]
  rfl

theorem decodeLast_two (start : Nat) (a b : UInt8) :
    decodeLast start (wire [a, b]) = .ok [a, b] := by
  have ha := a.toNat_lt
  have hb := b.toNat_lt
  have first : UInt8.ofNat (a.toNat / 4 * 4 + (a.toNat % 4 * 16 + b.toNat / 16) / 16) = a :=
    ofNat_eq (by omega)
  have second :
      UInt8.ofNat ((a.toNat % 4 * 16 + b.toNat / 16) % 16 * 16 + b.toNat % 16 * 4 / 4) = b :=
    ofNat_eq (by omega)
  have symbols :
      lastGroup start (wire [a, b]) 0 [] 0 =
      .ok ([(symbolByte (a.toNat / 4), a.toNat / 4),
      (symbolByte (a.toNat % 4 * 16 + b.toNat / 16), a.toNat % 4 * 16 + b.toNat / 16),
      (symbolByte (b.toNat % 16 * 4), b.toNat % 16 * 4)], 1) := by
    simp (disch := omega) [wire, lastGroup, symbolByte_ne_pad, value?_symbolByte]
  have zero : b.toNat % 16 * 4 % 4 = 0 := by omega
  rw [decodeLast, symbols]
  simp only [bind, Except.bind, List.length_cons, List.length_nil, zero, first, second]
  rfl

theorem decodeLast_three (start : Nat) (a b c : UInt8) :
    decodeLast start (wire [a, b, c]) = .ok [a, b, c] := by
  have ha := a.toNat_lt
  have hb := b.toNat_lt
  have hc := c.toNat_lt
  have symbols :
      lastGroup start (wire [a, b, c]) 0 [] 0 =
      .ok ([(symbolByte (a.toNat / 4), a.toNat / 4),
      (symbolByte (a.toNat % 4 * 16 + b.toNat / 16), a.toNat % 4 * 16 + b.toNat / 16),
      (symbolByte (b.toNat % 16 * 4 + c.toNat / 64), b.toNat % 16 * 4 + c.toNat / 64),
      (symbolByte (c.toNat % 64), c.toNat % 64)], 0) := by
    simp (disch := omega) [wire, lastGroup, symbolByte_ne_pad, value?_symbolByte]
  rw [decodeLast, symbols]
  simp only [bind, Except.bind, List.length_cons, List.length_nil, group_eq]
  rfl

theorem decodeGroups_zero (start : Nat) (bytes : List UInt8) :
    decodeGroups 0 start bytes = decodeLast start bytes := by
  simp [decodeGroups]

theorem decodeGroups_wire {bytes : List UInt8} {whole : Nat}
    (count : whole + 1 = (bytes.length + 2) / 3) (start : Nat) :
    decodeGroups whole start (wire bytes) = .ok bytes := by
  -- Each whole group takes three bytes, so that one, two or three of them are left for the last.
  induction whole generalizing bytes start with
  | zero =>
      rw [decodeGroups_zero]
      match bytes, count with
      | [a], _ => exact decodeLast_one start a
      | [a, b], _ => exact decodeLast_two start a b
      | [a, b, c], _ => exact decodeLast_three start a b c
      | [], count | _ :: _ :: _ :: _ :: _, count =>
          simp only [List.length_cons, List.length_nil] at count
          omega
  | succ whole ih =>
      match bytes, count with
      | a :: b :: c :: rest, count =>
          have ha := a.toNat_lt
          have hb := b.toNat_lt
          have hc := c.toNat_lt
          have later : decodeGroups whole (start + 4) (wire rest) = .ok rest := by
            refine ih ?_ _
            simp only [List.length_cons] at count
            omega
          simp only [wire, decodeGroups]
          simp (disch := omega) only [sextet_symbolByte, bind, Except.bind, later, group_eq]
          rfl
      | [], count | [_], count | [_, _], count =>
          simp only [List.length_cons, List.length_nil] at count
          omega

theorem decode_wire (bytes : List UInt8) : decode (wire bytes) = .ok bytes := by
  have hlength := length_wire bytes
  unfold decode
  by_cases nothing : bytes = []
  · subst nothing
    rfl
  · have positive := List.length_pos_iff.2 nothing
    have nonempty : (wire bytes).length ≠ 0 := by omega
    have padded : (wire bytes).length % 4 = 0 := by omega
    have count : (wire bytes).length / 4 - 1 + 1 = (bytes.length + 2) / 3 := by omega
    have read := decodeGroups_wire count 0
    simp [nonempty, padded, read]

theorem decodeText_encodeText (bytes : List UInt8) :
    decodeText (Text.trimmed (encodeText bytes).toList) = .ok bytes := by
  rw [encodeText, String.toList_ofList, Text.trimmed_eq_self (isBlank_encode bytes),
    decodeText, utf8_encode, decode_wire]

end HollowNode.Base64
