/-
  Tracewright.Proofs.Text.Decoding

  Which bytes are text, and that no other bytes have that text.

    * `IsSequence`, `IsWellFormed`
                     — the well-formed sequences of bytes, by the ranges of
                       their bytes, and what is made of them.
    * `isSequence_iff`
                     — they are the bytes of characters.
    * `decode?_eq_some_iff`, `exists_decode?_iff`
                     — bytes are read as the text whose bytes they are, and
                       can be read iff they are well-formed.
    * `encode_filter`
                     — leaving out an ASCII character is leaving out its byte.
-/
import Tracewright.Proofs.Text.Utf8

namespace Tracewright.Text.Utf8

/-! ## Well-formed bytes -/

/-- A byte that goes on with a sequence. -/
def IsTail (b : UInt8) : Prop := 0x80 ≤ b.toNat ∧ b.toNat ≤ 0xbf

/-- The bytes of one character.  A sequence of two starts at `c2`, and the second byte of a longer
    one is bounded, since what is left out could be said in fewer bytes, or is a surrogate, or lies
    beyond the last code point. -/
inductive IsSequence : List UInt8 → Prop
  | one {a : UInt8} (ha : a.toNat ≤ 0x7f) : IsSequence [a]
  | two {a b : UInt8} (ha : 0xc2 ≤ a.toNat ∧ a.toNat ≤ 0xdf) (hb : IsTail b) : IsSequence [a, b]
  | three {a b c : UInt8} (ha : 0xe0 ≤ a.toNat ∧ a.toNat ≤ 0xef) (hb : IsTail b) (hc : IsTail c)
      (hlong : a.toNat = 0xe0 → 0xa0 ≤ b.toNat) (hsurrogate : a.toNat = 0xed → b.toNat ≤ 0x9f) :
      IsSequence [a, b, c]
  | four {a b c d : UInt8} (ha : 0xf0 ≤ a.toNat ∧ a.toNat ≤ 0xf4) (hb : IsTail b) (hc : IsTail c)
      (hd : IsTail d) (hlong : a.toNat = 0xf0 → 0x90 ≤ b.toNat)
      (hlast : a.toNat = 0xf4 → b.toNat ≤ 0x8f) : IsSequence [a, b, c, d]

/-- One sequence after another. -/
inductive IsWellFormed : List UInt8 → Prop
  | nil : IsWellFormed []
  | append {q rest : List UInt8} (hq : IsSequence q) (hrest : IsWellFormed rest) :
      IsWellFormed (q ++ rest)

/-! ## The bytes of characters -/

theorem isTail_tailByte (n : Nat) : IsTail (tailByte n) := by
  have h : (tailByte n).toNat = 0x80 + n % 64 := toNat_ofNat_of_lt (by omega)
  rw [IsTail, h]
  omega

theorem toNat_tailByte (n : Nat) : (tailByte n).toNat = 0x80 + n % 64 :=
  toNat_ofNat_of_lt (by omega)

theorem tailByte_eq {n : Nat} {b : UInt8} (hb : IsTail b) (h : n % 64 = b.toNat - 0x80) :
    tailByte n = b := by
  have hn : 0x80 + n % 64 = b.toNat := by
    have := hb.1
    omega
  rw [tailByte, hn, UInt8.ofNat_toNat]

/-- The bytes of a character are a sequence. -/
theorem isSequence_encodeChar (c : Char) : IsSequence (encodeChar c) := by
  have hvalid := toNat_valid c
  rw [encodeChar]
  split_ifs with h₁ h₂ h₃
  · refine .one ?_
    rw [toNat_ofNat_of_lt (by omega)]
    omega
  · refine .two ?_ (isTail_tailByte _)
    rw [toNat_ofNat_of_lt (by omega)]
    omega
  · have ha : (UInt8.ofNat (0xe0 + c.toNat / 4096)).toNat = 0xe0 + c.toNat / 4096 :=
      toNat_ofNat_of_lt (by omega)
    refine .three ?_ (isTail_tailByte _) (isTail_tailByte _) ?_ ?_
    all_goals
      simp only [ha, toNat_tailByte]
      omega
  · have ha : (UInt8.ofNat (0xf0 + c.toNat / 262144)).toNat = 0xf0 + c.toNat / 262144 :=
      toNat_ofNat_of_lt (by omega)
    refine .four ?_ (isTail_tailByte _) (isTail_tailByte _) (isTail_tailByte _) ?_ ?_
    all_goals
      simp only [ha, toNat_tailByte]
      omega

/-- Every sequence is the bytes of a character. -/
theorem exists_encodeChar {q : List UInt8} (h : IsSequence q) : ∃ c, encodeChar c = q := by
  cases h with
  | @one a ha =>
    have hn : (Char.ofNat a.toNat).toNat = a.toNat := toNat_ofNat_of_isValidChar (.inl (by omega))
    refine ⟨Char.ofNat a.toNat, ?_⟩
    rw [encodeChar, hn, if_pos (by omega), UInt8.ofNat_toNat]
  | @two a b ha hb =>
    have hb' := hb
    rw [IsTail] at hb'
    obtain ⟨n, hdef⟩ : ∃ n, n = (a.toNat - 0xc0) * 64 + (b.toNat - 0x80) := ⟨_, rfl⟩
    have hn : (Char.ofNat n).toNat = n := toNat_ofNat_of_isValidChar (.inl (by omega))
    have hlead : 0xc0 + n / 64 = a.toNat := by omega
    refine ⟨Char.ofNat n, ?_⟩
    rw [encodeChar, hn, if_neg (by omega), if_pos (by omega), hlead, UInt8.ofNat_toNat,
      tailByte_eq hb (by omega)]
  | @three a b c ha hb hc hlong hsurrogate =>
    have hb' := hb
    have hc' := hc
    rw [IsTail] at hb' hc'
    obtain ⟨n, hdef⟩ : ∃ n, n = (a.toNat - 0xe0) * 4096 + (b.toNat - 0x80) * 64 +
      (c.toNat - 0x80) := ⟨_, rfl⟩
    -- what is neither too short nor a surrogate is a character of three bytes
    have hrange : 0x800 ≤ n ∧ n < 0x10000 ∧ (n < 0xd800 ∨ 0xdfff < n) := by omega
    have hn : (Char.ofNat n).toNat = n :=
      toNat_ofNat_of_isValidChar (hrange.2.2.imp id fun h => ⟨h, by omega⟩)
    have hlead : 0xe0 + n / 4096 = a.toNat := by omega
    refine ⟨Char.ofNat n, ?_⟩
    rw [encodeChar, hn, if_neg (by omega), if_neg (by omega), if_pos (by omega), hlead,
      UInt8.ofNat_toNat, tailByte_eq hb (by omega), tailByte_eq hc (by omega)]
  | @four a b c d ha hb hc hd hlong hlast =>
    have hb' := hb
    have hc' := hc
    have hd' := hd
    rw [IsTail] at hb' hc' hd'
    obtain ⟨n, hdef⟩ : ∃ n, n = (a.toNat - 0xf0) * 262144 + (b.toNat - 0x80) * 4096 +
      (c.toNat - 0x80) * 64 + (d.toNat - 0x80) := ⟨_, rfl⟩
    have hrange : 0x10000 ≤ n ∧ n < 0x110000 := by omega
    have hn : (Char.ofNat n).toNat = n :=
      toNat_ofNat_of_isValidChar (.inr ⟨by omega, hrange.2⟩)
    have hlead : 0xf0 + n / 262144 = a.toNat := by omega
    refine ⟨Char.ofNat n, ?_⟩
    rw [encodeChar, hn, if_neg (by omega), if_neg (by omega), if_neg (by omega), hlead,
      UInt8.ofNat_toNat, tailByte_eq hb (by omega), tailByte_eq hc (by omega),
      tailByte_eq hd (by omega)]

/-- Bytes are well-formed iff they are the bytes of a text. -/
theorem isWellFormed_iff {bytes : List UInt8} : IsWellFormed bytes ↔ ∃ t, encode t = bytes := by
  constructor
  · intro h
    induction h with
    | nil => exact ⟨[], rfl⟩
    | append hq _ ih =>
      obtain ⟨c, rfl⟩ := exists_encodeChar hq
      obtain ⟨t, rfl⟩ := ih
      exact ⟨c :: t, rfl⟩
  · rintro ⟨t, rfl⟩
    induction t with
    | nil => exact .nil
    | cons c t ih => exact .append (isSequence_encodeChar c) ih

/-! ## Reading -/

theorem tailBits?_eq_some {b : UInt8} {x : Nat} (h : tailBits? b = some x) :
    IsTail b ∧ x = b.toNat - 0x80 := by
  rw [tailBits?] at h
  split_ifs at h with hb
  exact ⟨⟨hb.1, by omega⟩, (Option.some.inj h).symm⟩

theorem isSequence_of_twoBytes? {a b : UInt8} {c : Char} (ha : 0xc0 ≤ a.toNat ∧ a.toNat < 0xe0)
    (h : twoBytes? a b = some c) : IsSequence [a, b] := by
  obtain ⟨x, hx, h⟩ := Option.bind_eq_some_iff.1 h
  obtain ⟨hb, hxb⟩ := tailBits?_eq_some hx
  dsimp only at h
  split_ifs at h with hn
  have hb' := hb
  rw [IsTail] at hb'
  exact .two ⟨by omega, by omega⟩ hb

theorem isSequence_of_threeBytes? {a b c : UInt8} {d : Char}
    (ha : 0xe0 ≤ a.toNat ∧ a.toNat < 0xf0) (h : threeBytes? a b c = some d) :
    IsSequence [a, b, c] := by
  obtain ⟨x, hx, h⟩ := Option.bind_eq_some_iff.1 h
  obtain ⟨y, hy, h⟩ := Option.bind_eq_some_iff.1 h
  obtain ⟨hb, hxb⟩ := tailBits?_eq_some hx
  obtain ⟨hc, hyc⟩ := tailBits?_eq_some hy
  dsimp only at h
  split_ifs at h with hn
  have hb' := hb
  have hc' := hc
  rw [IsTail] at hb' hc'
  exact .three ⟨by omega, by omega⟩ hb hc (by omega) (by omega)

theorem isSequence_of_fourBytes? {a b c d : UInt8} {e : Char}
    (ha : 0xf0 ≤ a.toNat ∧ a.toNat < 0xf8) (h : fourBytes? a b c d = some e) :
    IsSequence [a, b, c, d] := by
  obtain ⟨x, hx, h⟩ := Option.bind_eq_some_iff.1 h
  obtain ⟨y, hy, h⟩ := Option.bind_eq_some_iff.1 h
  obtain ⟨z, hz, h⟩ := Option.bind_eq_some_iff.1 h
  obtain ⟨hb, hxb⟩ := tailBits?_eq_some hx
  obtain ⟨hc, hyc⟩ := tailBits?_eq_some hy
  obtain ⟨hd, hzd⟩ := tailBits?_eq_some hz
  dsimp only at h
  split_ifs at h with hn
  have hb' := hb
  have hc' := hc
  have hd' := hd
  rw [IsTail] at hb' hc' hd'
  exact .four ⟨by omega, by omega⟩ hb hc hd (by omega) (by omega)

/-- What can be read is one sequence after another. -/
theorem isWellFormed_of_decodeLoop {done t : Text} {bytes : List UInt8}
    (h : decodeLoop done bytes = some t) : IsWellFormed bytes := by
  -- the cases are those of the reading: by the first byte, and by what follows it
  fun_induction decodeLoop done bytes with
  | case1 => exact .nil
  | case2 done a rest ha ih => exact .append (.one (by omega)) (ih h)
  | case5 done a ha ha' b rest hlt c hc ih =>
    exact .append (isSequence_of_twoBytes? ⟨by omega, hlt⟩ hc) (ih h)
  | case8 done a ha ha' b hlt c rest hlt' d hd ih =>
    exact .append (isSequence_of_threeBytes? ⟨by omega, hlt'⟩ hd) (ih h)
  | case11 done a ha ha' b hlt c hlt' hlt'' d rest e he ih =>
    exact .append (isSequence_of_fourBytes? ⟨by omega, hlt''⟩ he) (ih h)
  | _ => cases h

/-- Bytes are read as the text whose bytes they are, and as no other one. -/
theorem decode?_eq_some_iff {bytes : List UInt8} {t : Text} :
    decode? bytes = some t ↔ encode t = bytes := by
  constructor
  · intro h
    obtain ⟨t', rfl⟩ := isWellFormed_iff.1 (isWellFormed_of_decodeLoop h)
    rw [decode?_encode, Option.some_inj] at h
    rw [h]
  · rintro rfl
    exact decode?_encode t

/-- Bytes can be read iff they are well-formed. -/
theorem exists_decode?_iff {bytes : List UInt8} :
    (∃ t, decode? bytes = some t) ↔ IsWellFormed bytes := by
  rw [isWellFormed_iff]
  exact exists_congr fun t => decode?_eq_some_iff

/-! ## Leaving out a character -/

/-- The byte of an ASCII character stands for nothing else. -/
theorem mem_encodeChar_iff {b : UInt8} (hb : b.toNat < 0x80) {c : Char} :
    b ∈ encodeChar c ↔ c.toNat = b.toNat := by
  have htail (n : Nat) : b ≠ tailByte n := by
    rintro rfl
    rw [toNat_tailByte] at hb
    omega
  have hlead {n : Nat} (hn : 0x80 ≤ n ∧ n < 256) : b ≠ UInt8.ofNat n := by
    rintro rfl
    rw [toNat_ofNat_of_lt hn.2] at hb
    omega
  have hvalid := toNat_valid c
  rw [encodeChar]
  split_ifs with h₁ h₂ h₃
  · rw [List.mem_singleton]
    constructor
    · rintro rfl
      exact (toNat_ofNat_of_lt (by omega)).symm
    · intro h
      rw [h, UInt8.ofNat_toNat]
  -- every byte of a longer sequence is beyond ASCII
  · have hfirst : b ≠ UInt8.ofNat (0xc0 + c.toNat / 64) := hlead (by omega)
    simp only [List.mem_cons, List.not_mem_nil, hfirst, htail, or_false, false_iff]
    omega
  · have hfirst : b ≠ UInt8.ofNat (0xe0 + c.toNat / 4096) := hlead (by omega)
    simp only [List.mem_cons, List.not_mem_nil, hfirst, htail, or_false, false_iff]
    omega
  · have hfirst : b ≠ UInt8.ofNat (0xf0 + c.toNat / 262144) := hlead (by omega)
    simp only [List.mem_cons, List.not_mem_nil, hfirst, htail, or_false, false_iff]
    omega

theorem filter_encodeChar {b : UInt8} (hb : b.toNat < 0x80) (c : Char) :
    (encodeChar c).filter (· != b) = if c.toNat = b.toNat then [] else encodeChar c := by
  split_ifs with hc
  · rw [encodeChar, if_pos (by omega), hc, UInt8.ofNat_toNat]
    simp
  · refine List.filter_eq_self.2 fun x hx => ?_
    rw [bne_iff_ne]
    rintro rfl
    exact hc ((mem_encodeChar_iff hb).1 hx)

/-- Leaving out an ASCII character is leaving out its byte. -/
theorem encode_filter {c : Char} {b : UInt8} (hb : b.toNat < 0x80) (hc : c.toNat = b.toNat)
    (t : Text) : encode (t.filter (· != c)) = (encode t).filter (· != b) := by
  induction t with
  | nil => rfl
  | cons d t ih =>
    have hcons : encode (d :: t) = encodeChar d ++ encode t := List.flatMap_cons
    rw [hcons, List.filter_append, filter_encodeChar hb, ← ih, List.filter_cons]
    by_cases hd : d = c
    · rw [if_neg (by simp [hd]), if_pos (by rw [hd, hc]), List.nil_append]
    · have hne : d.toNat ≠ b.toNat := by
        rw [← hc]
        exact fun h => hd (Char.toNat_inj.1 h)
      rw [if_pos (by simpa using hd), if_neg hne]
      exact List.flatMap_cons

end Tracewright.Text.Utf8
