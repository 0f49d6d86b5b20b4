/-
  Tracewright.Text.Utf8

  UTF-8 as a list of bytes.  Decoding accepts the well-formed sequences and
  nothing else: no overlong form, no surrogate, no value above U+10FFFF, no
  sequence cut short.

    * `encode`  — the bytes of a text.
    * `decode?` — the text of well-formed bytes.

  Reference: the `utf-8` codec, strict.
-/
import Tracewright.Text.Basic

namespace Tracewright.Text.Utf8

/-! ## Encoding -/

/-- A continuation byte: its six low bits are the low bits of `n`. -/
def tailByte (n : Nat) : UInt8 := UInt8.ofNat (0x80 + n % 64)

/-- The one to four bytes of a character. -/
def encodeChar (c : Char) : List UInt8 :=
  let n := c.toNat
  if n < 0x80 then [UInt8.ofNat n]
  else if n < 0x800 then [UInt8.ofNat (0xc0 + n / 64), tailByte n]
  else if n < 0x10000 then [UInt8.ofNat (0xe0 + n / 4096), tailByte (n / 64), tailByte n]
  else [UInt8.ofNat (0xf0 + n / 262144), tailByte (n / 4096), tailByte (n / 64), tailByte n]

def encode (t : Text) : List UInt8 := t.flatMap encodeChar

/-! ## Decoding -/

/-- The six bits of a continuation byte. -/
def tailBits? (b : UInt8) : Option Nat :=
  if 0x80 ≤ b.toNat ∧ b.toNat < 0xc0 then some (b.toNat - 0x80) else none

def twoBytes? (b₁ b₂ : UInt8) : Option Char := do
  let x ← tailBits? b₂
  let n := (b₁.toNat - 0xc0) * 64 + x
  if 0x80 ≤ n then some (Char.ofNat n) else none

def threeBytes? (b₁ b₂ b₃ : UInt8) : Option Char := do
  let x ← tailBits? b₂
  let y ← tailBits? b₃
  let n := (b₁.toNat - 0xe0) * 4096 + x * 64 + y
  if 0x800 ≤ n ∧ ¬ (0xd800 ≤ n ∧ n < 0xe000) then some (Char.ofNat n) else none

def fourBytes? (b₁ b₂ b₃ b₄ : UInt8) : Option Char := do
  let x ← tailBits? b₂
  let y ← tailBits? b₃
  let z ← tailBits? b₄
  let n := (b₁.toNat - 0xf0) * 262144 + x * 4096 + y * 64 + z
  if 0x10000 ≤ n ∧ n < 0x110000 then some (Char.ofNat n) else none

/-- Reads sequence after sequence; the first byte says how long each is.  `done` is what
    has been read, last character first. -/
def decodeLoop (done : Text) : List UInt8 → Option Text
  | [] => some done.reverse
  | b₁ :: rest =>
    if b₁.toNat < 0x80 then decodeLoop (Char.ofNat b₁.toNat :: done) rest
    else if b₁.toNat < 0xc0 then none
    else match rest with
      | [] => none
      | b₂ :: rest =>
        if b₁.toNat < 0xe0 then
          match twoBytes? b₁ b₂ with
          | some c => decodeLoop (c :: done) rest
          | none => none
        else match rest with
          | [] => none
          | b₃ :: rest =>
            if b₁.toNat < 0xf0 then
              match threeBytes? b₁ b₂ b₃ with
              | some c => decodeLoop (c :: done) rest
              | none => none
            else if b₁.toNat < 0xf8 then
              match rest with
              | [] => none
              | b₄ :: rest =>
                match fourBytes? b₁ b₂ b₃ b₄ with
                | some c => decodeLoop (c :: done) rest
                | none => none
            else none

def decode? (bytes : List UInt8) : Option Text := decodeLoop [] bytes

example : decode? (encode "a\u00e9\u20ac\ud7ff") = some "a\u00e9\u20ac\ud7ff".toList := by
  decide +kernel
example : decode? [0xed, 0xa0, 0x80] = none := by decide +kernel
example : decode? [0xc0, 0x80] = none := by decide +kernel

end Tracewright.Text.Utf8
