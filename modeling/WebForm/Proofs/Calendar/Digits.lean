import Mathlib
import WebForm.Calendar.Iso
import WebForm.Proofs.Numerals

/-!
# Numbers of fixed width

A number of fixed width is written with zeros in front. Such a text is the only one of its length
that stands for the number, so reading a number from the front of a text undoes writing it there.
-/
namespace WebForm

section Digits

variable {c d : Char} {ds es : List Char}

theorem digit_lt (h : c.isDigit = true) : c.toNat - '0'.toNat < 10 := by
  rw [Char.isDigit_iff_toNat] at h
  have h9 : '9'.toNat = '0'.toNat + 9 := rfl
  omega

theorem digit_inj (hc : c.isDigit = true) (hd : d.isDigit = true)
    (h : c.toNat - '0'.toNat = d.toNat - '0'.toNat) : c = d := by
  rw [Char.isDigit_iff_toNat] at hc hd
  exact Char.toNat_inj.1 (by omega)

theorem ofDigitChars_snoc (ds : List Char) (c : Char) :
    Nat.ofDigitChars 10 (ds ++ [c]) 0 = 10 * Nat.ofDigitChars 10 ds 0 + (c.toNat - '0'.toNat) := by
  rw [Nat.ofDigitChars_append, Nat.ofDigitChars_cons, Nat.ofDigitChars_nil]

theorem ofDigitChars_lt (h : ∀ c ∈ ds, c.isDigit = true) :
    Nat.ofDigitChars 10 ds 0 < 10 ^ ds.length := by
  induction ds using List.reverseRecOn with
  | nil => simp
  | append_singleton ds c ih =>
    have hds := ih fun d hd => h d (List.mem_append_left _ hd)
    have hc := digit_lt (h c (by simp))
    rw [ofDigitChars_snoc, List.length_append, List.length_singleton, pow_succ]
    omega

theorem ofDigitChars_inj (hds : ∀ c ∈ ds, c.isDigit = true) (hes : ∀ c ∈ es, c.isDigit = true)
    (hlength : ds.length = es.length)
    (h : Nat.ofDigitChars 10 ds 0 = Nat.ofDigitChars 10 es 0) : ds = es := by
  induction ds using List.reverseRecOn generalizing es with
  | nil => exact (List.length_eq_zero_iff.1 hlength.symm).symm
  | append_singleton ds c ih =>
    obtain rfl | ⟨es, d, rfl⟩ := List.eq_nil_or_concat es
    · simp at hlength
    rw [List.concat_eq_append] at *
    have hc := hds c (by simp)
    have hd := hes d (by simp)
    have hc' := digit_lt hc
    have hd' := digit_lt hd
    rw [ofDigitChars_snoc, ofDigitChars_snoc] at h
    have hrest : ds = es := by
      refine ih (fun c hc => hds c (List.mem_append_left _ hc))
        (fun c hc => hes c (List.mem_append_left _ hc)) (by simpa using hlength) (by omega)
    rw [hrest, digit_inj hc hd (by omega)]

end Digits

section Width

variable {n v : Nat} {c : Char} {s r : List Char}

theorem length_decimal (hn : 0 < n) (hv : v < 10 ^ n) : (Text.decimal n v).length = n := by
  have hlength := (Nat.length_toDigits_le_iff (by decide) hn).2 hv
  rw [Text.decimal, Text.padLeft, List.length_append, List.length_replicate]
  omega

theorem isDigit_of_mem_padded (h : c ∈ Text.decimal n v) : c.isDigit = true := by
  rcases List.mem_append.1 h with h | h
  · obtain rfl := List.eq_of_mem_replicate h
    rfl
  · exact isDigit_of_mem_decimal h

theorem exists_cons_of_padded (hn : 0 < n) :
    ∃ c cs, Text.decimal n v = c :: cs ∧ c.isDigit = true := by
  have hlength : n ≤ (Text.decimal n v).length := by
    rw [Text.decimal, Text.padLeft, List.length_append, List.length_replicate]
    omega
  obtain ⟨c, cs, h⟩ := List.exists_cons_of_length_pos (hn.trans_le hlength)
  exact ⟨c, cs, h, isDigit_of_mem_padded (h ▸ List.mem_cons_self)⟩

theorem ofDigitChars_padded (n v : Nat) : Nat.ofDigitChars 10 (Text.decimal n v) 0 = v := by
  rw [Text.decimal, Text.padLeft, Nat.ofDigitChars_append, Nat.ofDigitChars_replicate_zero,
    mul_zero, Nat.ofDigitChars_ten_toDigits]

theorem eq_decimal {ds : List Char} (h : ∀ c ∈ ds, c.isDigit = true) (hne : 0 < ds.length) :
    ds = Text.decimal ds.length (Nat.ofDigitChars 10 ds 0) := by
  refine ofDigitChars_inj h (fun c => isDigit_of_mem_padded) ?_ (ofDigitChars_padded _ _).symm
  exact (length_decimal hne (ofDigitChars_lt h)).symm

theorem takeNumber_digits {ds : List Char} (hlength : ds.length = n)
    (h : ∀ c ∈ ds, c.isDigit = true) :
    takeNumber n (ds ++ r) = some (Nat.ofDigitChars 10 ds 0, r) := by
  rw [takeNumber, List.take_left' hlength, List.drop_left' hlength, if_pos hlength,
    asciiDigits_of_isDigit h]
  exact congrArg some (Prod.ext (ofDigits_map ds) rfl)

theorem digits_of_takeNumber (h : takeNumber n s = some (v, r)) :
    ∃ ds, s = ds ++ r ∧ ds.length = n ∧ (∀ c ∈ ds, c.isDigit = true) ∧
      v = Nat.ofDigitChars 10 ds 0 := by
  unfold takeNumber at h
  simp only at h
  split_ifs at h with hlength
  obtain ⟨vs, hvs, h⟩ := Option.map_eq_some_iff.1 h
  obtain ⟨hdigits, rfl⟩ := asciiDigits_eq_some.1 hvs
  obtain ⟨rfl, rfl⟩ := Prod.mk.inj h
  exact ⟨s.take n, (List.take_append_drop n s).symm, hlength, hdigits, ofDigits_map _⟩

theorem takeNumber_eq_some (hn : 0 < n) :
    takeNumber n s = some (v, r) ↔ v < 10 ^ n ∧ s = Text.decimal n v ++ r := by
  constructor
  · intro h
    obtain ⟨ds, rfl, rfl, hdigits, rfl⟩ := digits_of_takeNumber h
    exact ⟨ofDigitChars_lt hdigits, by rw [← eq_decimal hdigits hn]⟩
  · rintro ⟨hv, rfl⟩
    have h := takeNumber_digits (r := r) (length_decimal hn hv) fun c => isDigit_of_mem_padded
    rwa [ofDigitChars_padded] at h

@[simp] theorem takeNumber_decimal (hn : 0 < n) (hv : v < 10 ^ n) :
    takeNumber n (Text.decimal n v ++ r) = some (v, r) :=
  (takeNumber_eq_some hn).2 ⟨hv, rfl⟩

theorem head?_decimal {c : Char} (hn : 0 < n) (hc : c.isDigit = false) :
    (Text.decimal n v ++ r).head? ≠ some c := by
  obtain ⟨d, ds, hcons, hd⟩ := exists_cons_of_padded (v := v) hn
  rw [hcons, List.cons_append, List.head?_cons]
  exact fun h => ne_of_isDigit hd hc (Option.some.inj h)

theorem takeNumber_bind {α : Type} {f : Nat × List Char → Option α} {a : α} (hn : 0 < n) :
    (takeNumber n s).bind f = some a ↔
      ∃ v r, v < 10 ^ n ∧ s = Text.decimal n v ++ r ∧ f (v, r) = some a := by
  rw [Option.bind_eq_some_iff, Prod.exists]
  simp only [takeNumber_eq_some hn, and_assoc]

theorem getElem?_decimal (hn : 0 < n) (hv : v < 10 ^ n) (i : Nat) :
    (Text.decimal n v ++ r)[n + i]? = r[i]? := by
  have hlength := length_decimal hn hv
  rw [List.getElem?_append_right (by omega), hlength, Nat.add_sub_cancel_left]

theorem drop_decimal (hn : 0 < n) (hv : v < 10 ^ n) (i : Nat) :
    (Text.decimal n v ++ r).drop (n + i) = r.drop i := by
  rw [← List.drop_drop, List.drop_left' (length_decimal hn hv)]

end Width

end WebForm
