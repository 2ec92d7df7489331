import DocQuery.Text.Hex
import Mathlib.Data.List.Basic

/-!
# Bytes can be read off their text

Every three bytes are four characters of the alphabet of 64; what is left over is padded, and the
padding is no character of the alphabet.
-/

namespace DocQuery.Text

theorem base64Digit?_base64Char {n : Nat} (hn : n < 64) : base64Digit? (base64Char n) = some n := by
  have hall : ∀ k : Fin 64, base64Digit? (base64Char k) = some k.val := by decide
  exact hall ⟨n, hn⟩

/-- The characters of the alphabet are no padding, and no brackets. -/
theorem base64Char_ne {n : Nat} (hn : n < 64) : base64Char n ≠ '=' ∧ base64Char n ≠ ')' := by
  have hall : ∀ k : Fin 64, base64Char k ≠ '=' ∧ base64Char k ≠ ')' := by decide
  exact hall ⟨n, hn⟩

theorem ofNat_eq_byte {n : Nat} (byte : UInt8) (h : n = byte.toNat) : UInt8.ofNat n = byte :=
  h ▸ UInt8.ofNat_toNat

/-- The bytes can be read off their text again. -/
theorem bytesOfBase64?_base64OfBytes (bytes : List UInt8) :
    bytesOfBase64? (base64OfBytes bytes) = some bytes := by
  fun_induction base64OfBytes bytes with
  | case1 => rfl
  | case2 a =>
    have ha := a.toNat_lt
    rw [bytesOfBase64?, base64Digit?_base64Char (by omega), base64Digit?_base64Char (by omega)]
    dsimp only [Option.bind_eq_bind, Option.bind_some]
    rw [if_pos (by omega), ofNat_eq_byte a (by omega)]
  | case3 a b =>
    have ha := a.toNat_lt
    have hb := b.toNat_lt
    have hlast := (base64Char_ne (n := (a.toNat * 256 + b.toNat) * 4 % 64) (by omega)).1
    rw [bytesOfBase64?]
    · rw [base64Digit?_base64Char (by omega), base64Digit?_base64Char (by omega),
        base64Digit?_base64Char (by omega)]
      dsimp only [Option.bind_eq_bind, Option.bind_some]
      rw [if_pos (by omega), ofNat_eq_byte a (by omega), ofNat_eq_byte b (by omega)]
    · exact fun heq => hlast heq
  | case4 a b c rest n ih =>
    have ha := a.toNat_lt
    have hb := b.toNat_lt
    have hc := c.toNat_lt
    have hlast := (base64Char_ne (n := ((a.toNat * 256 + b.toNat) * 256 + c.toNat) % 64) (by omega)).1
    rw [bytesOfBase64?]
    · rw [base64Digit?_base64Char (by omega), base64Digit?_base64Char (by omega),
        base64Digit?_base64Char (by omega), base64Digit?_base64Char (by omega), ih]
      dsimp only [Option.bind_eq_bind, Option.bind_some]
      rw [ofNat_eq_byte a (by omega), ofNat_eq_byte b (by omega),
        ofNat_eq_byte c (by omega)]
    · exact fun _ heq _ => hlast heq
    · exact fun heq _ => hlast heq

theorem bracket_notMem_base64OfBytes (bytes : List UInt8) : ')' ∉ base64OfBytes bytes := by
  have hchar : ∀ {n : Nat}, n < 64 → ')' ≠ base64Char n := fun hn => (base64Char_ne hn).2.symm
  fun_induction base64OfBytes bytes with
  | case1 => exact List.not_mem_nil
  | case2 a =>
    have ha := a.toNat_lt
    simp only [List.mem_cons, not_or]
    exact ⟨hchar (by omega), hchar (by omega), by decide, by decide, List.not_mem_nil⟩
  | case3 a b =>
    have ha := a.toNat_lt
    have hb := b.toNat_lt
    simp only [List.mem_cons, not_or]
    exact ⟨hchar (by omega), hchar (by omega), hchar (by omega), by decide, List.not_mem_nil⟩
  | case4 a b c rest n ih =>
    have ha := a.toNat_lt
    have hb := b.toNat_lt
    have hc := c.toNat_lt
    simp only [List.mem_cons, not_or]
    exact ⟨hchar (by omega), hchar (by omega), hchar (by omega), hchar (by omega), ih⟩

end DocQuery.Text
