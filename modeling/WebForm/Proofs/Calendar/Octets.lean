import Mathlib
import WebForm.Proofs.Calendar.Digits
import WebForm.Proofs.Utf8
import WebForm.Text.Percent

/-!
# Texts by their octets

The octets of a text are those of its characters, one after another. An octet below 128 is a
character of its own, so what follows such octets in a text are the octets of a text again. The
first octet of a character says how many there are.
-/
namespace WebForm

def charOctets (c : Char) : List Char := Text.latin1 (Text.encodeChar c)

def octets (s : List Char) : List Char := Text.latin1 (Text.encode s)

section Append

variable {c : Char}

theorem octets_cons (c : Char) (s : List Char) : octets (c :: s) = charOctets c ++ octets s := by
  simp only [octets, Text.encode, List.flatMap_cons, Text.latin1, List.map_append, charOctets]

theorem octetChars_append (s t : String) : octetChars (s ++ t) = octetChars s ++ octetChars t := by
  simp only [octetChars, Text.encodeString, String.toList_append, Text.encode, List.flatMap_append,
    Text.latin1, List.map_append]

theorem charOctets_ascii (h : Text.isAscii c = true) : charOctets c = [c] := by
  have hc : c.toNat < 0x80 := of_decide_eq_true h
  rw [charOctets, Text.encodeChar]
  simp only [if_pos hc]
  rw [Text.latin1, List.map_singleton, Text.toNat_octet (by omega), Char.ofNat_toNat]

theorem octets_ascii {s : List Char} (h : ∀ c ∈ s, Text.isAscii c = true) : octets s = s := by
  induction s with
  | nil => rfl
  | cons c s ih =>
    rw [octets_cons, charOctets_ascii (h c List.mem_cons_self),
      ih fun d hd => h d (List.mem_cons_of_mem c hd), List.singleton_append]

theorem isAscii_of_isDigit (h : c.isDigit = true) : Text.isAscii c = true := by
  have hnine : '9'.toNat < 0x80 := by decide
  exact decide_eq_true ((Char.isDigit_iff_toNat.1 h).2.trans_lt hnine)

theorem octetChars_decimal (n v : Nat) :
    octetChars (String.ofList (Text.decimal n v)) = Text.decimal n v := by
  have h : ∀ c ∈ (String.ofList (Text.decimal n v)).toList, Text.isAscii c = true := by
    rw [String.toList_ofList]
    exact fun c hc => isAscii_of_isDigit (isDigit_of_mem_padded hc)
  exact (octets_ascii h).trans String.toList_ofList

end Append

section First

variable {n : Nat} {s a r : List Char}

theorem toNat_ofNat_octet (h : n < 0x100) : (Char.ofNat n.toUInt8.toNat).toNat = n := by
  have hvalid : n.isValidChar := .inl (by omega)
  rw [Text.toNat_octet h, Char.toNat_ofNat, if_pos hvalid]

theorem separatorLength_octet (h : n < 0x100) :
    separatorLength (Char.ofNat n.toUInt8.toNat) =
      if n < 0x80 then 1 else if n / 16 = 0xE then 3 else if n / 16 = 0xF then 4 else 2 := by
  simp only [separatorLength, toNat_ofNat_octet h]

theorem not_isAscii_octet (h : n < 0x100) (hn : 0x80 ≤ n) :
    ¬Text.isAscii (Char.ofNat n.toUInt8.toNat) = true := by
  rw [Text.isAscii, toNat_ofNat_octet h, decide_eq_true_eq]
  omega

theorem charOctets_eq_cons (c : Char) :
    ∃ b bs, charOctets c = b :: bs ∧ separatorLength b = bs.length + 1 ∧
      (Text.isAscii b = true → bs = []) := by
  have hvalid : c.toNat < 0xD800 ∨ 0xDFFF < c.toNat ∧ c.toNat < 0x110000 := c.valid
  unfold charOctets Text.encodeChar
  simp only
  split_ifs with h1 h2 h3
  · refine ⟨_, [], rfl, ?_, fun _ => rfl⟩
    rw [separatorLength_octet (by omega), if_pos h1, List.length_nil]
  · refine ⟨_, [_], rfl, ?_, fun h => absurd h (not_isAscii_octet (by omega) (by omega))⟩
    rw [separatorLength_octet (by omega), if_neg (by omega), if_neg (by omega), if_neg (by omega),
      List.length_singleton]
  · refine ⟨_, [_, _], rfl, ?_, fun h => absurd h (not_isAscii_octet (by omega) (by omega))⟩
    rw [separatorLength_octet (by omega), if_neg (by omega), if_pos (by omega)]
    rfl
  · refine ⟨_, [_, _, _], rfl, ?_, fun h => absurd h (not_isAscii_octet (by omega) (by omega))⟩
    rw [separatorLength_octet (by omega), if_neg (by omega), if_neg (by omega), if_pos (by omega)]
    rfl

theorem exists_octets_of_append (h : octets s = a ++ r) (ha : ∀ c ∈ a, Text.isAscii c = true) :
    ∃ t, r = octets t := by
  induction a generalizing s with
  | nil => exact ⟨s, h.symm⟩
  | cons b a ih =>
    cases s with
    | nil => cases h
    | cons c s =>
      obtain ⟨b', bs, hc, -, hascii⟩ := charOctets_eq_cons c
      rw [octets_cons, hc, List.cons_append, List.cons_append] at h
      obtain ⟨rfl, hrest⟩ := List.cons.inj h
      rw [hascii (ha b' List.mem_cons_self), List.nil_append] at hrest
      exact ih hrest fun d hd => ha d (List.mem_cons_of_mem b' hd)

theorem exists_separator_iff {P : List Char → Prop} (t : List Char) :
    (∃ b ∈ (octets t).head?, P ((octets t).drop (separatorLength b))) ↔
      ∃ c rest, octets t = charOctets c ++ rest ∧ P rest := by
  constructor
  · rintro ⟨b, hb, hP⟩
    cases t with
    | nil => cases hb
    | cons c t =>
      obtain ⟨b', bs, hc, hlength, -⟩ := charOctets_eq_cons c
      rw [octets_cons, hc, List.cons_append] at hb hP
      obtain rfl := Option.some.inj hb
      rw [hlength, List.drop_succ_cons, List.drop_left] at hP
      exact ⟨c, octets t, octets_cons c t, hP⟩
  · rintro ⟨c, rest, h, hP⟩
    obtain ⟨b, bs, hc, hlength, -⟩ := charOctets_eq_cons c
    rw [h, hc, List.cons_append]
    refine ⟨b, rfl, ?_⟩
    rwa [hlength, List.drop_succ_cons, List.drop_left]

end First

end WebForm
