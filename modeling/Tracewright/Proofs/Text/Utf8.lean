/-
  Tracewright.Proofs.Text.Utf8

  Every text can be read back from its bytes.

    * `decodeLoop_encodeChar` — the bytes of a character are read as that
                                character, whatever comes behind them.
    * `decode?_encode`        — the bytes of a text are read as that text.
-/
import Mathlib.Tactic.SplitIfs
import Tracewright.Text.Utf8

namespace Tracewright.Text.Utf8

/-! ## One byte -/

theorem toNat_ofNat_of_lt {n : Nat} (h : n < 256) : (UInt8.ofNat n).toNat = n := by
  rw [UInt8.toNat_ofNat']
  exact Nat.mod_eq_of_lt h

theorem tailBits?_tailByte (n : Nat) : tailBits? (tailByte n) = some (n % 64) := by
  have h : (tailByte n).toNat = 0x80 + n % 64 := toNat_ofNat_of_lt (by omega)
  rw [tailBits?, h, if_pos (by omega), Nat.add_sub_cancel_left]

/-! ## One character -/

/-- A character is never a surrogate, and never beyond the last code point. -/
theorem toNat_valid (c : Char) : c.toNat < 0xd800 ∨ 0xdfff < c.toNat ∧ c.toNat < 0x110000 :=
  c.valid

/-- A number that is neither a surrogate nor beyond the last code point is one of a character. -/
theorem toNat_ofNat_of_isValidChar {n : Nat} (h : n.isValidChar) : (Char.ofNat n).toNat = n := by
  rw [Char.ofNat, dif_pos h]
  rfl

theorem twoBytes?_tailByte {c : Char} {b : UInt8} (hb : b.toNat = 0xc0 + c.toNat / 64)
    (hc : 0x80 ≤ c.toNat) : twoBytes? b (tailByte c.toNat) = some c := by
  have hn : (b.toNat - 0xc0) * 64 + c.toNat % 64 = c.toNat := by omega
  rw [twoBytes?, tailBits?_tailByte, Option.bind_eq_bind, Option.bind_some, hn, if_pos hc,
    Char.ofNat_toNat]

theorem threeBytes?_tailByte {c : Char} {b : UInt8} (hb : b.toNat = 0xe0 + c.toNat / 4096)
    (hc : 0x800 ≤ c.toNat) :
    threeBytes? b (tailByte (c.toNat / 64)) (tailByte c.toNat) = some c := by
  have hn : (b.toNat - 0xe0) * 4096 + c.toNat / 64 % 64 * 64 + c.toNat % 64 = c.toNat := by
    omega
  have hvalid := toNat_valid c
  rw [threeBytes?, tailBits?_tailByte, tailBits?_tailByte, Option.bind_eq_bind,
    Option.bind_some, Option.bind_some, hn, if_pos ⟨hc, by omega⟩, Char.ofNat_toNat]

theorem fourBytes?_tailByte {c : Char} {b : UInt8} (hb : b.toNat = 0xf0 + c.toNat / 262144)
    (hc : 0x10000 ≤ c.toNat) :
    fourBytes? b (tailByte (c.toNat / 4096)) (tailByte (c.toNat / 64)) (tailByte c.toNat) =
      some c := by
  have hn : (b.toNat - 0xf0) * 262144 + c.toNat / 4096 % 64 * 4096 + c.toNat / 64 % 64 * 64 +
      c.toNat % 64 = c.toNat := by omega
  have hvalid := toNat_valid c
  rw [fourBytes?, tailBits?_tailByte, tailBits?_tailByte, tailBits?_tailByte,
    Option.bind_eq_bind, Option.bind_some, Option.bind_some, Option.bind_some, hn,
    if_pos ⟨hc, by omega⟩, Char.ofNat_toNat]

theorem decodeLoop_encodeChar (done : Text) (c : Char) (rest : List UInt8) :
    decodeLoop done (encodeChar c ++ rest) = decodeLoop (c :: done) rest := by
  -- four bytes are enough only up to the last code point
  have hvalid := toNat_valid c
  rw [encodeChar]
  -- one case for each length of a sequence; the first byte tells them apart
  split_ifs with h₁ h₂ h₃
  · have hb : (UInt8.ofNat c.toNat).toNat = c.toNat := toNat_ofNat_of_lt (by omega)
    rw [List.singleton_append, decodeLoop.eq_def]
    simp only []
    rw [hb, if_pos h₁, Char.ofNat_toNat]
  · have hb : (UInt8.ofNat (0xc0 + c.toNat / 64)).toNat = 0xc0 + c.toNat / 64 :=
      toNat_ofNat_of_lt (by omega)
    rw [List.cons_append, List.singleton_append, decodeLoop.eq_def]
    simp only [twoBytes?_tailByte hb (by omega)]
    rw [hb, if_neg (by omega), if_neg (by omega), if_pos (by omega)]
  · have hb : (UInt8.ofNat (0xe0 + c.toNat / 4096)).toNat = 0xe0 + c.toNat / 4096 :=
      toNat_ofNat_of_lt (by omega)
    rw [List.cons_append, List.cons_append, List.singleton_append, decodeLoop.eq_def]
    simp only [threeBytes?_tailByte hb (by omega)]
    rw [hb, if_neg (by omega), if_neg (by omega), if_neg (by omega), if_pos (by omega)]
  · have hb : (UInt8.ofNat (0xf0 + c.toNat / 262144)).toNat = 0xf0 + c.toNat / 262144 :=
      toNat_ofNat_of_lt (by omega)
    rw [List.cons_append, List.cons_append, List.cons_append, List.singleton_append,
      decodeLoop.eq_def]
    simp only [fourBytes?_tailByte hb (by omega)]
    rw [hb, if_neg (by omega), if_neg (by omega), if_neg (by omega), if_neg (by omega),
      if_pos (by omega)]

/-! ## Texts -/

/-- What has been read so far stands before the rest. -/
theorem decodeLoop_encode (done t : Text) :
    decodeLoop done (encode t) = some (done.reverse ++ t) := by
  induction t generalizing done with
  | nil => simp [encode, decodeLoop]
  | cons c t ih =>
    rw [encode, List.flatMap_cons, decodeLoop_encodeChar, ← encode, ih]
    simp

/-- The bytes of a text are read as that text. -/
theorem decode?_encode (t : Text) : decode? (encode t) = some t := decodeLoop_encode [] t

end Tracewright.Text.Utf8
