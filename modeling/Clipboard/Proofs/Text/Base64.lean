import Clipboard.Text.Base64

/-!
Bytes written in base 64 are read back, whatever their number leaves for the last group.
-/

namespace Clipboard.Text.Base64

theorem value?_charOf : ∀ n < 64, value? (charOf n) = some n := by decide

theorem charOf_ne_fill : ∀ n < 64, (charOf n == '=') = false := by decide

theorem charOf_ascii : ∀ n < 64, (charOf n).toNat < 128 := by decide

/-! ## Bytes of a group -/

theorem byte_eq_of_toNat {a : UInt8} {n : Nat} (h : n = a.toNat) : UInt8.ofNat n = a := by
  rw [h, UInt8.ofNat_toNat]

theorem bytesOf_one (a : UInt8) : bytesOf [a.toNat / 4, a.toNat % 4 * 16] = [a] := by
  simp only [bytesOf, List.cons.injEq, and_true]
  exact byte_eq_of_toNat (by omega)

theorem bytesOf_two (a b : UInt8) :
    bytesOf [a.toNat / 4, a.toNat % 4 * 16 + b.toNat / 16, b.toNat % 16 * 4] = [a, b] := by
  have hb := b.toNat_lt
  simp only [bytesOf, List.cons.injEq, and_true]
  exact ⟨byte_eq_of_toNat (by omega), byte_eq_of_toNat (by omega)⟩

theorem bytesOf_three (a b c : UInt8) :
    bytesOf [a.toNat / 4, a.toNat % 4 * 16 + b.toNat / 16, b.toNat % 16 * 4 + c.toNat / 64,
      c.toNat % 64] = [a, b, c] := by
  have hb := b.toNat_lt
  have hc := c.toNat_lt
  simp only [bytesOf, List.cons.injEq, and_true]
  exact ⟨byte_eq_of_toNat (by omega), byte_eq_of_toNat (by omega),
    byte_eq_of_toNat (by omega)⟩

/-! ## Reading a group -/

/-- A character of the alphabet is put into the group, unless it fills it. -/
theorem decodeFrom_charOf {n : Nat} (hn : n < 64) {group : List Nat} (hg : group.length ≠ 3)
    (fills count : Nat) (cs : List Char) :
    decodeFrom group fills count (charOf n :: cs) = decodeFrom (group ++ [n]) 0 count cs := by
  simp [decodeFrom, charOf_ne_fill n hn, value?_charOf n hn, hg]

/-- The fourth character of a group gives its bytes. -/
theorem decodeFrom_charOf_last {n : Nat} (hn : n < 64) {group : List Nat} (hg : group.length = 3)
    (fills count : Nat) (cs : List Char) :
    decodeFrom group fills count (charOf n :: cs) =
      (decodeFrom [] 0 (count + 4) cs).map (bytesOf (group ++ [n]) ++ ·) := by
  simp only [decodeFrom, charOf_ne_fill n hn, value?_charOf n hn, hg, beq_self_eq_true, if_true]
  cases decodeFrom [] 0 (count + 4) cs <;> rfl

theorem decodeFrom_encode (bytes : List UInt8) (count : Nat) :
    decodeFrom [] 0 count (encode bytes) = .ok bytes := by
  fun_induction encode bytes generalizing count with
  | case1 => rfl
  | case2 a =>
      have ha := a.toNat_lt
      rw [decodeFrom_charOf (by omega) (by simp), decodeFrom_charOf (by omega) (by simp)]
      simp only [List.nil_append, List.cons_append]
      simp [decodeFrom, bytesOf_one]
  | case3 a b =>
      have ha := a.toNat_lt
      have hb := b.toNat_lt
      rw [decodeFrom_charOf (by omega) (by simp), decodeFrom_charOf (by omega) (by simp),
        decodeFrom_charOf (by omega) (by simp)]
      simp only [List.nil_append, List.cons_append]
      simp [decodeFrom, bytesOf_two]
  | case4 a b c rest ih =>
      have ha := a.toNat_lt
      have hb := b.toNat_lt
      have hc := c.toNat_lt
      rw [decodeFrom_charOf (by omega) (by simp), decodeFrom_charOf (by omega) (by simp),
        decodeFrom_charOf (by omega) (by simp), decodeFrom_charOf_last (by omega) (by simp), ih]
      simp only [List.nil_append, List.cons_append, bytesOf_three]
      rfl

theorem ascii_encode (bytes : List UInt8) : ∀ ch ∈ encode bytes, ch.toNat < 128 := by
  fun_induction encode bytes with
  | case1 => simp
  | case2 a =>
      have ha := a.toNat_lt
      simpa using ⟨charOf_ascii _ (by omega), charOf_ascii _ (by omega)⟩
  | case3 a b =>
      have ha := a.toNat_lt
      have hb := b.toNat_lt
      simpa using ⟨charOf_ascii _ (by omega), charOf_ascii _ (by omega), charOf_ascii _ (by omega)⟩
  | case4 a b c rest ih =>
      have ha := a.toNat_lt
      have hb := b.toNat_lt
      have hc := c.toNat_lt
      simpa using ⟨charOf_ascii _ (by omega), charOf_ascii _ (by omega), charOf_ascii _ (by omega),
        charOf_ascii _ (by omega), ih⟩

theorem decode_encode (bytes : List UInt8) : decode (encode bytes) = .ok bytes := by
  have hascii : (encode bytes).all (·.toNat < 128) = true := by
    simpa using ascii_encode bytes
  rw [decode, if_pos hascii, decodeFrom_encode]

theorem encode_ne_nil {bytes : List UInt8} (h : bytes ≠ []) : encode bytes ≠ [] := by
  match bytes, h with
  | [_], _ => simp [encode]
  | [_, _], _ => simp [encode]
  | _ :: _ :: _ :: _, _ => simp [encode]

end Clipboard.Text.Base64
