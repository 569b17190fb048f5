import Mathlib
import WebForm.Text.Utf8

/-!
# Decoding undoes encoding

A character is encoded as a start octet, which says how many octets there are, and continuation
octets with six bits each. Decoding puts these bits together again.
-/
namespace WebForm.Text

theorem toNat_octet {n : Nat} (h : n < 0x100) : n.toUInt8.toNat = n := by
  rw [Nat.toUInt8_eq, UInt8.toNat_ofNat_of_lt' h]

section Head

variable {b b2 b3 b4 : UInt8} {rest : Octets}

theorem isContinuation_iff : isContinuation b = true ↔ 0x80 ≤ b.toNat ∧ b.toNat < 0xC0 := by
  simp [isContinuation, UInt8.le_iff_toNat_le, UInt8.lt_iff_toNat_lt]

theorem isSecond_iff :
    isSecond b b2 = true ↔ (0x80 ≤ b2.toNat ∧ b2.toNat < 0xC0) ∧
      (b.toNat = 0xE0 → 0xA0 ≤ b2.toNat) ∧ (b.toNat = 0xED → b2.toNat < 0xA0) ∧
      (b.toNat = 0xF0 → 0x90 ≤ b2.toNat) ∧ (b.toNat = 0xF4 → b2.toNat < 0x90) := by
  simp [isSecond, isContinuation_iff, UInt8.le_iff_toNat_le, UInt8.lt_iff_toNat_lt,
    ← UInt8.toNat_inj, imp_iff_not_or, and_assoc]

theorem utf8Head_one (hb : b.toNat < 0x80) : utf8Head b rest = .char (Char.ofNat b.toNat) 1 := by
  have h : b < 0x80 := UInt8.lt_iff_toNat_lt.2 hb
  unfold utf8Head
  rw [if_pos h]

theorem start_iff :
    ¬b < 0x80 ∧ (decide (b < 0xC2) || decide (0xF4 < b)) = false ↔
      0xC2 ≤ b.toNat ∧ b.toNat ≤ 0xF4 := by
  simp only [UInt8.lt_iff_toNat_lt, Bool.or_eq_false_iff, decide_eq_false_iff_not,
    UInt8.toNat_ofNat]
  omega

theorem utf8Head_two (hb : 0xC2 ≤ b.toNat) (hb' : b.toNat < 0xE0) (h2 : isSecond b b2 = true) :
    utf8Head b (b2 :: rest) = .char (Char.ofNat (b.toNat % 0x20 * 0x40 + low6 b2)) 2 := by
  obtain ⟨hone, hstart⟩ := start_iff.2 ⟨hb, by omega⟩
  have htwo : b < 0xE0 := UInt8.lt_iff_toNat_lt.2 hb'
  unfold utf8Head
  rw [if_neg hone, hstart]
  simp [h2, htwo]

theorem utf8Head_three (hb : 0xE0 ≤ b.toNat) (hb' : b.toNat < 0xF0) (h2 : isSecond b b2 = true)
    (h3 : isContinuation b3 = true) :
    utf8Head b (b2 :: b3 :: rest) =
      .char (Char.ofNat (b.toNat % 0x10 * 0x1000 + low6 b2 * 0x40 + low6 b3)) 3 := by
  obtain ⟨hone, hstart⟩ := (@start_iff b).2 ⟨by omega, by omega⟩
  have htwo : ¬b < 0xE0 := fun h => absurd (UInt8.lt_iff_toNat_lt.1 h) (not_lt.2 hb)
  have hthree : b < 0xF0 := UInt8.lt_iff_toNat_lt.2 hb'
  unfold utf8Head
  rw [if_neg hone, hstart]
  simp [h2, h3, htwo, hthree]

theorem utf8Head_four (hb : 0xF0 ≤ b.toNat) (hb' : b.toNat ≤ 0xF4) (h2 : isSecond b b2 = true)
    (h3 : isContinuation b3 = true) (h4 : isContinuation b4 = true) :
    utf8Head b (b2 :: b3 :: b4 :: rest) =
      .char (Char.ofNat
        (b.toNat % 8 * 0x40000 + low6 b2 * 0x1000 + low6 b3 * 0x40 + low6 b4)) 4 := by
  obtain ⟨hone, hstart⟩ := (@start_iff b).2 ⟨by omega, hb'⟩
  have htwo : ¬b < 0xE0 := fun h =>
    absurd (UInt8.lt_iff_toNat_lt.1 h) (not_lt.2 (le_trans (by decide) hb))
  have hthree : ¬b < 0xF0 := fun h => absurd (UInt8.lt_iff_toNat_lt.1 h) (not_lt.2 hb)
  unfold utf8Head
  rw [if_neg hone, hstart]
  simp [h2, h3, h4, htwo, hthree]

end Head

section Continuation

variable {n : Nat}

theorem toNat_continuation (h : n < 0x40) : (0x80 + n).toUInt8.toNat = 0x80 + n :=
  toNat_octet (by omega)

theorem isContinuation_continuation (h : n < 0x40) :
    isContinuation (0x80 + n).toUInt8 = true := by
  rw [isContinuation_iff, toNat_continuation h]
  omega

theorem low6_continuation (h : n < 0x40) : low6 (0x80 + n).toUInt8 = n := by
  rw [low6, toNat_continuation h]
  omega

end Continuation

/-- The octets of a character are read as the character, whatever follows them. -/
theorem utf8Head_encodeChar (c : Char) :
    ∃ b r, encodeChar c = b :: r ∧ ∀ rest, utf8Head b (r ++ rest) = .char c (r.length + 1) := by
  have hc : Char.ofNat c.toNat = c := Char.ofNat_toNat c
  have hvalid : c.toNat < 0xD800 ∨ 0xDFFF < c.toNat ∧ c.toNat < 0x110000 := c.valid
  have hlow : c.toNat % 0x40 < 0x40 := Nat.mod_lt _ (by decide)
  have hmiddle : c.toNat / 0x40 % 0x40 < 0x40 := Nat.mod_lt _ (by decide)
  have hhigh : c.toNat / 0x1000 % 0x40 < 0x40 := Nat.mod_lt _ (by decide)
  unfold encodeChar
  simp only
  split_ifs with h1 h2 h3
  · refine ⟨_, [], rfl, fun rest => ?_⟩
    have hb : c.toNat.toUInt8.toNat = c.toNat := toNat_octet (by omega)
    rw [utf8Head_one (by omega), hb, hc]
    rfl
  · refine ⟨_, [_], rfl, fun rest => ?_⟩
    have hb : (0xC0 + c.toNat / 0x40).toUInt8.toNat = 0xC0 + c.toNat / 0x40 :=
      toNat_octet (by omega)
    have hnumber : (0xC0 + c.toNat / 0x40) % 0x20 * 0x40 + c.toNat % 0x40 = c.toNat := by omega
    have hsecond : isSecond (0xC0 + c.toNat / 0x40).toUInt8 (0x80 + c.toNat % 0x40).toUInt8 := by
      rw [isSecond_iff, toNat_continuation hlow, hb]
      omega
    rw [List.singleton_append, utf8Head_two (by omega) (by omega) hsecond, hb,
      low6_continuation hlow, hnumber, hc]
    rfl
  · refine ⟨_, [_, _], rfl, fun rest => ?_⟩
    have hb : (0xE0 + c.toNat / 0x1000).toUInt8.toNat = 0xE0 + c.toNat / 0x1000 :=
      toNat_octet (by omega)
    have hnumber : (0xE0 + c.toNat / 0x1000) % 0x10 * 0x1000 + c.toNat / 0x40 % 0x40 * 0x40 +
        c.toNat % 0x40 = c.toNat := by omega
    have hsecond : isSecond (0xE0 + c.toNat / 0x1000).toUInt8
        (0x80 + c.toNat / 0x40 % 0x40).toUInt8 := by
      rw [isSecond_iff, toNat_continuation hmiddle, hb]
      omega
    change utf8Head _ (_ :: _ :: rest) = _
    rw [utf8Head_three (by omega) (by omega) hsecond (isContinuation_continuation hlow), hb,
      low6_continuation hmiddle, low6_continuation hlow, hnumber, hc]
    rfl
  · refine ⟨_, [_, _, _], rfl, fun rest => ?_⟩
    have hb : (0xF0 + c.toNat / 0x40000).toUInt8.toNat = 0xF0 + c.toNat / 0x40000 :=
      toNat_octet (by omega)
    have hnumber : (0xF0 + c.toNat / 0x40000) % 8 * 0x40000 + c.toNat / 0x1000 % 0x40 * 0x1000 +
        c.toNat / 0x40 % 0x40 * 0x40 + c.toNat % 0x40 = c.toNat := by omega
    have hsecond : isSecond (0xF0 + c.toNat / 0x40000).toUInt8
        (0x80 + c.toNat / 0x1000 % 0x40).toUInt8 := by
      rw [isSecond_iff, toNat_continuation hhigh, hb]
      omega
    change utf8Head _ (_ :: _ :: _ :: rest) = _
    rw [utf8Head_four (by omega) (by omega) hsecond (isContinuation_continuation hmiddle)
      (isContinuation_continuation hlow), hb, low6_continuation hhigh, low6_continuation hmiddle,
      low6_continuation hlow, hnumber, hc]
    rfl

theorem utf8Head_encode (c : Char) (s : List Char) :
    ∃ b r, encode (c :: s) = b :: (r ++ encode s) ∧
      utf8Head b (r ++ encode s) = .char c (r.length + 1) := by
  obtain ⟨b, r, hencode, hhead⟩ := utf8Head_encodeChar c
  refine ⟨b, r, ?_, hhead _⟩
  rw [encode, List.flatMap_cons, hencode]
  rfl

theorem decodeFrom_encode (all : Octets) (pos : Nat) (s : List Char) :
    decodeFrom all pos (encode s) = .ok s := by
  induction s generalizing pos with
  | nil => rw [encode, List.flatMap_nil, decodeFrom]
  | cons c s ih =>
    obtain ⟨b, r, hcons, hhead⟩ := utf8Head_encode c s
    rw [hcons, decodeFrom, hhead]
    simp only [Nat.add_sub_cancel, List.drop_left, ih]

theorem decode_encode (s : List Char) : decode (encode s) = .ok s := decodeFrom_encode _ _ s

theorem decodeLossy_encode (s : List Char) : decodeLossy (encode s) = s := by
  induction s with
  | nil => rw [encode, List.flatMap_nil, decodeLossy]
  | cons c s ih =>
    obtain ⟨b, r, hcons, hhead⟩ := utf8Head_encode c s
    rw [hcons, decodeLossy, hhead]
    simp only [Nat.add_sub_cancel, List.drop_left, ih]

end WebForm.Text
