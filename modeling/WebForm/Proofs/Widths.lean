import Mathlib
import WebForm.Proofs.Numerals
import WebForm.Proofs.Run.Basic

/-!
# Whole numbers of a width

A leaf for whole numbers takes a sign or none, then one to 4300 digits from 0 to 9 and nothing else,
if the number lies between the least and the greatest one of the width. Every other text is one
error. The decimal text of a number is such a text.
-/
namespace WebForm

structure IsDigits (ds : List Char) : Prop where
  isDigit : ∀ c ∈ ds, c.isDigit = true
  ne_nil : ds ≠ []
  length_le : ds.length ≤ 4300

inductive Numeral : List Char → Int → Prop
  | plain {ds : List Char} : IsDigits ds → Numeral ds (Nat.ofDigitChars 10 ds 0)
  | positive {ds : List Char} : IsDigits ds → Numeral ('+' :: ds) (Nat.ofDigitChars 10 ds 0)
  | negative {ds : List Char} : IsDigits ds → Numeral ('-' :: ds) (-(Nat.ofDigitChars 10 ds 0))

/-- The numbers of a width; one bit of a signed number is for the sign. -/
def InWidth : Bool → Option Nat → Int → Prop
  | true, none, _ => True
  | false, none, n => 0 ≤ n
  | true, some bits, n => -2 ^ (bits - 1) ≤ n ∧ n ≤ 2 ^ (bits - 1) - 1
  | false, some bits, n => 0 ≤ n ∧ n ≤ 2 ^ bits - 1

instance (n : Int) : (signed : Bool) → (bits : Option Nat) → Decidable (InWidth signed bits n)
  | true, none => inferInstanceAs (Decidable True)
  | false, none => inferInstanceAs (Decidable (0 ≤ n))
  | true, some bits => inferInstanceAs (Decidable (-2 ^ (bits - 1) ≤ n ∧ n ≤ 2 ^ (bits - 1) - 1))
  | false, some bits => inferInstanceAs (Decidable (0 ≤ n ∧ n ≤ 2 ^ bits - 1))

section Reading

variable {s r : List Char} {negative : Bool} {i : Int}

theorem readInteger_eq_ok (hs : takeSign s = (negative, r)) :
    readInteger s = .ok i ↔
      IsDigits r ∧
        i = if negative then -(Nat.ofDigitChars 10 r 0 : Int) else Nat.ofDigitChars 10 r 0 := by
  by_cases hempty : s.isEmpty = true
  · obtain rfl := List.isEmpty_iff.1 hempty
    obtain ⟨rfl, rfl⟩ := Prod.mk.inj hs
    exact ⟨(by cases ·), fun h => absurd rfl h.1.ne_nil⟩
  rw [readInteger, if_neg hempty, hs]
  cases hr : r.mapM Text.asciiDigit? with
  | none =>
    simp only [hr]
    refine ⟨(by cases ·), fun h => ?_⟩
    rw [asciiDigits_of_isDigit h.1.isDigit] at hr
    cases hr
  | some ds =>
    obtain ⟨hdigits, rfl⟩ := asciiDigits_eq_some.1 hr
    simp only [hr]
    cases r with
    | nil => exact ⟨(by cases ·), fun h => absurd rfl h.1.ne_nil⟩
    | cons c r =>
      have hvalue := ofDigits_map (c :: r)
      rw [List.map_cons] at hvalue
      simp only [List.map_cons, List.length_cons, List.length_map, hvalue]
      by_cases hlength : digitLimit < r.length + 1
      · rw [if_pos hlength]
        exact ⟨(by cases ·), fun h => absurd h.1.length_le (Nat.not_le_of_lt hlength)⟩
      · rw [if_neg hlength, Except.ok.injEq, eq_comm]
        have hdigits : IsDigits (c :: r) :=
          ⟨hdigits, List.cons_ne_nil c r, Nat.le_of_not_lt hlength⟩
        exact ⟨fun h => ⟨hdigits, h⟩, And.right⟩

theorem IsDigits.head_ne {c d : Char} (h : IsDigits (c :: r)) (hd : d.isDigit = false) : c ≠ d :=
  ne_of_isDigit (h.isDigit c List.mem_cons_self) hd

theorem numeral_iff (hs : takeSign s = (negative, r)) :
    Numeral s i ↔
      IsDigits r ∧
        i = if negative then -(Nat.ofDigitChars 10 r 0 : Int) else Nat.ofDigitChars 10 r 0 := by
  unfold takeSign at hs
  split at hs <;> obtain ⟨rfl, rfl⟩ := Prod.mk.inj hs
  · refine ⟨fun h => ?_, fun ⟨h, hi⟩ => hi ▸ .negative h⟩
    cases h with
    | plain h => exact absurd rfl (h.head_ne rfl)
    | negative h => exact ⟨h, rfl⟩
  · refine ⟨fun h => ?_, fun ⟨h, hi⟩ => hi ▸ .positive h⟩
    cases h with
    | plain h => exact absurd rfl (h.head_ne rfl)
    | positive h => exact ⟨h, rfl⟩
  · next hminus hplus =>
    refine ⟨fun h => ?_, fun ⟨h, hi⟩ => hi ▸ .plain h⟩
    cases h with
    | plain h => exact ⟨h, rfl⟩
    | positive h => exact absurd rfl (hplus _)
    | negative h => exact absurd rfl (hminus _)

/-- What is read as a number is exactly its numerals. -/
theorem readInteger_eq_ok_iff : readInteger s = .ok i ↔ Numeral s i :=
  (readInteger_eq_ok rfl).trans (numeral_iff rfl).symm

theorem numeral_toString (h : (Nat.toDigits 10 i.natAbs).length ≤ 4300) :
    Numeral (toString i).toList i :=
  readInteger_eq_ok_iff.1 (readInteger_toString h)

end Reading

section Range

variable {signed : Bool} {bits : Option Nat} {n m : Int}

theorem IntegerRange.check_eq_ok {r : IntegerRange} :
    r.check n = .ok m ↔ m = n ∧ (∀ g ∈ r.greatest, n ≤ g) ∧ ∀ l ∈ r.least, l ≤ n := by
  obtain ⟨least, greatest⟩ := r
  have hgreatest : greatest.any (· < n) = true ↔ ¬∀ g ∈ greatest, n ≤ g := by
    cases greatest <;> simp
  have hleast : least.any (n < ·) = true ↔ ¬∀ l ∈ least, l ≤ n := by
    cases least <;> simp
  simp only [IntegerRange.check, hgreatest, hleast]
  split_ifs with hg hl hsign
  · exact ⟨fun h => ⟨(Except.ok.inj h).symm, hg, hl⟩, fun h => congrArg _ h.1.symm⟩
  · exact ⟨nofun, fun h => absurd h.2.2 hl⟩
  · exact ⟨nofun, fun h => absurd h.2.2 hl⟩
  · exact ⟨nofun, fun h => absurd h.2.1 hg⟩

theorem ofBits_check_eq_ok : (IntegerRange.ofBits signed bits).check n = .ok m ↔
    m = n ∧ InWidth signed bits n := by
  rw [IntegerRange.check_eq_ok]
  refine and_congr_right fun _ => ?_
  cases bits <;> cases signed <;> simp [IntegerRange.ofBits, InWidth, and_comm]

theorem readWhole_eq_ok {s : String} : readWhole (.ofBits signed bits) s = .ok n ↔
    Numeral s.toList n ∧ InWidth signed bits n := by
  rw [readWhole, bind_eq_ok]
  constructor
  · rintro ⟨m, hm, hn⟩
    obtain ⟨rfl, hfits⟩ := ofBits_check_eq_ok.1 hn
    exact ⟨readInteger_eq_ok_iff.1 hm, hfits⟩
  · rintro ⟨hn, hfits⟩
    exact ⟨n, readInteger_eq_ok_iff.2 hn, ofBits_check_eq_ok.2 ⟨rfl, hfits⟩⟩

end Range

section Leaf

variable {signed : Bool} {bits : Option Nat} {f : ValueField} {n : Int} {fault : IntegerFault}

theorem integer_leaf_ok (h : readWhole (.ofBits signed bits) f.value = .ok n) :
    (Leaf.integer signed bits).rules.ofValue f = .ok (.int n) := by
  change ((readWhole _ _).map Value.int).mapError _ = _
  rw [h]
  rfl

theorem integer_leaf_error (h : readWhole (.ofBits signed bits) f.value = .error fault) :
    (Leaf.integer signed bits).rules.ofValue f =
      .error (.errors [⟨.unreadable .int (.integer fault), .value, none, none⟩]) := by
  change ((readWhole _ _).map Value.int).mapError _ = _
  rw [h]
  rfl

/-- A leaf for whole numbers takes exactly the numerals of the numbers of its width, and gives the
number. Any other text is one error. The decimal text of a number is one of its numerals, so it
reads back. -/
theorem integer_leaf_exact (signed : Bool) (bits : Option Nat) :
    (∀ (f : ValueField) (v : Value), (Leaf.integer signed bits).rules.ofValue f = .ok v ↔
      ∃ n, Numeral f.value.toList n ∧ InWidth signed bits n ∧ v = .int n) ∧
    (∀ f : ValueField, (¬∃ n, Numeral f.value.toList n ∧ InWidth signed bits n) →
      ∃ fault, (Leaf.integer signed bits).rules.ofValue f =
        .error (.errors [⟨.unreadable .int (.integer fault), .value, none, none⟩])) ∧
    ∀ (name : View) (n : Int), (Nat.toDigits 10 n.natAbs).length ≤ 4300 → InWidth signed bits n →
      (Leaf.integer signed bits).rules.ofValue ⟨name, toString n⟩ = .ok (.int n) := by
  refine ⟨fun f v => ⟨fun h => ?_, ?_⟩, fun f h => ?_, fun name n hlength hfits => ?_⟩
  · cases hr : readWhole (.ofBits signed bits) f.value with
    | ok n =>
      rw [integer_leaf_ok hr] at h
      obtain ⟨hnumeral, hfits⟩ := readWhole_eq_ok.1 hr
      exact ⟨n, hnumeral, hfits, (Except.ok.inj h).symm⟩
    | error fault =>
      rw [integer_leaf_error hr] at h
      cases h
  · rintro ⟨n, hnumeral, hfits, rfl⟩
    exact integer_leaf_ok (readWhole_eq_ok.2 ⟨hnumeral, hfits⟩)
  · cases hr : readWhole (.ofBits signed bits) f.value with
    | ok n => exact absurd ⟨n, readWhole_eq_ok.1 hr⟩ h
    | error fault => exact ⟨fault, integer_leaf_error hr⟩
  · exact integer_leaf_ok (readWhole_eq_ok.2 ⟨numeral_toString hlength, hfits⟩)

/-- The numbers of eight bits with a sign end at -128 on one side and before 128 on the other. -/
theorem octet_exact :
    (Nat.toDigits 10 (-128 : Int).natAbs).length ≤ 4300 ∧ InWidth true (some 8) (-128) ∧
      (Leaf.integer true (some 8)).rules.ofValue
          ⟨.ofName (.ofString "age"), toString (-128 : Int)⟩ = .ok (.int (-128)) ∧
      (¬∃ n, Numeral (ValueField.ofText "age" "+128").value.toList n ∧ InWidth true (some 8) n) ∧
      ∃ fault, (Leaf.integer true (some 8)).rules.ofValue (.ofText "age" "+128") =
        .error (.errors [⟨.unreadable .int (.integer fault), .value, none, none⟩]) := by
  have hlength : (Nat.toDigits 10 (-128 : Int).natAbs).length ≤ 4300 := by decide
  have hfits : InWidth true (some 8) (-128) := by decide
  have hnone : ¬∃ n, Numeral (ValueField.ofText "age" "+128").value.toList n ∧
      InWidth true (some 8) n := by
    rintro ⟨n, hn, hfits⟩
    obtain rfl : 128 = n := Except.ok.inj (readInteger_eq_ok_iff.2 hn)
    exact absurd hfits (by decide)
  obtain ⟨-, hother, htext⟩ := integer_leaf_exact true (some 8)
  exact ⟨hlength, hfits, htext _ _ hlength hfits, hnone, hother _ hnone⟩

end Leaf

end WebForm
