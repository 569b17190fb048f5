import Mathlib
import WebForm.Number.Numeral

/-!
# Writing and reading whole numbers

The decimal text of a whole number reads back as the number.
-/
namespace WebForm

theorem ne_of_isDigit {c d : Char} (hc : c.isDigit = true) (hd : d.isDigit = false) : c ≠ d := by
  rintro rfl
  rw [hc] at hd
  cases hd

theorem asciiDigits_of_isDigit {cs : List Char} (h : ∀ c ∈ cs, c.isDigit = true) :
    cs.mapM Text.asciiDigit? = some (cs.map fun c => c.toNat - 48) := by
  induction cs with
  | nil => rfl
  | cons c cs ih =>
    have hc : Text.asciiDigit? c = some (c.toNat - 48) := if_pos (h c List.mem_cons_self)
    rw [List.mapM_cons, hc, ih fun c hc => h c (List.mem_cons_of_mem _ hc)]
    rfl

theorem asciiDigits_eq_some {cs : List Char} {ds : List Nat} :
    cs.mapM Text.asciiDigit? = some ds ↔
      (∀ c ∈ cs, c.isDigit = true) ∧ ds = cs.map fun c => c.toNat - 48 := by
  constructor
  · intro h
    have hdigits : ∀ c ∈ cs, c.isDigit = true := by
      induction cs generalizing ds with
      | nil => exact nofun
      | cons c cs ih =>
        rw [List.mapM_cons] at h
        obtain ⟨d, hd, h⟩ := Option.bind_eq_some_iff.1 h
        obtain ⟨es, hes, -⟩ := Option.bind_eq_some_iff.1 h
        have hc : c.isDigit = true := by
          by_contra hc
          rw [Text.asciiDigit?, if_neg hc] at hd
          cases hd
        exact List.forall_mem_cons.2 ⟨hc, ih hes⟩
    rw [asciiDigits_of_isDigit hdigits] at h
    exact ⟨hdigits, (Option.some.inj h).symm⟩
  · rintro ⟨hdigits, rfl⟩
    exact asciiDigits_of_isDigit hdigits

theorem ofDigits_map (cs : List Char) :
    ofDigits (cs.map fun c => c.toNat - 48) = Nat.ofDigitChars 10 cs 0 := by
  rw [ofDigits, List.foldl_map]
  rfl

theorem isDigit_of_mem_decimal {n : Nat} {c : Char} (h : c ∈ Nat.toDigits 10 n) :
    c.isDigit = true :=
  Nat.isDigit_of_mem_toDigits (by decide) le_rfl h

theorem ofDigits_decimal (n : Nat) :
    ofDigits ((Nat.toDigits 10 n).map fun c => c.toNat - 48) = n := by
  rw [ofDigits_map]
  exact Nat.ofDigitChars_ten_toDigits

theorem toDigits_injective : Function.Injective (Nat.toDigits 10) := by
  intro m n h
  rw [← Nat.ofDigitChars_ten_toDigits (n := m), h, Nat.ofDigitChars_ten_toDigits]

theorem takeSign_decimal (n : Nat) :
    takeSign (Nat.toDigits 10 n) = (false, Nat.toDigits 10 n) := by
  unfold takeSign
  split
  · next r h =>
    have hc : '-' ∈ Nat.toDigits 10 n := h ▸ List.mem_cons_self
    exact absurd (isDigit_of_mem_decimal hc) (by decide)
  · next r h =>
    have hc : '+' ∈ Nat.toDigits 10 n := h ▸ List.mem_cons_self
    exact absurd (isDigit_of_mem_decimal hc) (by decide)
  · rfl

theorem readInteger_of_sign {s : List Char} {negative : Bool} {n : Nat}
    (hs : takeSign s = (negative, Nat.toDigits 10 n)) (hne : s ≠ [])
    (hn : (Nat.toDigits 10 n).length ≤ digitLimit) :
    readInteger s = .ok (if negative then -(n : Int) else n) := by
  obtain ⟨d, ds, hds⟩ : ∃ d ds, (Nat.toDigits 10 n).map (fun c => c.toNat - 48) = d :: ds :=
    List.exists_cons_of_ne_nil (by simp [Nat.toDigits_ne_nil])
  have hdigits : (Nat.toDigits 10 n).mapM Text.asciiDigit? = some (d :: ds) := by
    rw [asciiDigits_of_isDigit fun c hc => isDigit_of_mem_decimal hc, hds]
  have hlength : ¬digitLimit < (d :: ds).length := by
    rw [← hds, List.length_map]
    exact Nat.not_lt_of_le hn
  have hempty : ¬s.isEmpty = true := by simpa using hne
  rw [readInteger, if_neg hempty, hs]
  simp only [hdigits]
  rw [if_neg hlength, ← hds, ofDigits_decimal]

/-- The decimal text of a number reads as the number, unless it has too many digits. -/
theorem readInteger_toString {i : Int} (h : (Nat.toDigits 10 i.natAbs).length ≤ digitLimit) :
    readInteger (toString i).toList = .ok i := by
  cases i with
  | ofNat n =>
    have htext : (toString (Int.ofNat n)).toList = Nat.toDigits 10 n := Nat.toList_repr
    rw [htext]
    exact readInteger_of_sign (takeSign_decimal n) Nat.toDigits_ne_nil h
  | negSucc n =>
    have htext : (toString (Int.negSucc n)).toList = '-' :: Nat.toDigits 10 (n + 1) := by
      change ("-" ++ (n + 1).repr).toList = _
      rw [String.toList_append, Nat.toList_repr]
      rfl
    rw [htext]
    have hsign : takeSign ('-' :: Nat.toDigits 10 (n + 1)) = (true, Nat.toDigits 10 (n + 1)) := rfl
    exact readInteger_of_sign hsign (List.cons_ne_nil _ _) h

end WebForm
