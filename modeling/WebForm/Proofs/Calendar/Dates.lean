import Mathlib
import WebForm.Proofs.Calendar.Days
import WebForm.Proofs.Calendar.Digits

/-!
# Dates as they are written

A date is written by month or by week, with hyphens between all of its parts or between none of
them. The dates that are read are those of days of the calendar. Two more octets may follow a date
without hyphens that names a day, and these are not looked at.
-/
namespace WebForm

/-- The parts of a date in a text. A week without a day stands for its Monday. -/
inductive WrittenDate where
  | monthly (year month day : Nat)
  | weekly (year week : Nat) (day : Option Nat)

def sep (mark : Char) (marked : Bool) : List Char := if marked then [mark] else []

@[simp] theorem sep_true (mark : Char) : sep mark true = [mark] := rfl

@[simp] theorem sep_false (mark : Char) : sep mark false = [] := rfl

namespace WrittenDate

def Fits : WrittenDate → Prop
  | monthly year month day => year < 10 ^ 4 ∧ month < 10 ^ 2 ∧ day < 10 ^ 2
  | weekly year week day => year < 10 ^ 4 ∧ week < 10 ^ 2 ∧ ∀ k ∈ day, k < 10 ^ 1

def text (hyphens : Bool) : WrittenDate → List Char
  | monthly year month day =>
    Text.decimal 4 year ++ (sep '-' hyphens ++
      (Text.decimal 2 month ++ (sep '-' hyphens ++ Text.decimal 2 day)))
  | weekly year week none =>
    Text.decimal 4 year ++ (sep '-' hyphens ++ 'W' :: Text.decimal 2 week)
  | weekly year week (some day) =>
    Text.decimal 4 year ++ (sep '-' hyphens ++
      'W' :: (Text.decimal 2 week ++ (sep '-' hyphens ++ Text.decimal 1 day)))

def date? : WrittenDate → Option Date
  | monthly year month day => some ⟨year, month, day⟩
  | weekly year week day => isoWeekDate? year week (day.getD 1)

def Names : WrittenDate → Date → Prop
  | monthly year month day, d => d = ⟨year, month, day⟩
  | weekly year week day, d => IsWeekDay year week (day.getD 1) d

/-- A day of the week is looked for only if the week ends before `n` octets. -/
def EndsBy (hyphens : Bool) (n : Nat) : WrittenDate → Prop
  | monthly .. => True
  | weekly _ _ none => n ≤ 7 + (sep '-' hyphens).length
  | weekly _ _ (some _) => 7 + (sep '-' hyphens).length < n

def HasDay : WrittenDate → Prop
  | weekly _ _ none => False
  | _ => True

def width : Bool → WrittenDate → Nat
  | true, weekly _ _ none => 8
  | false, weekly _ _ none => 7
  | true, _ => 10
  | false, _ => 8

end WrittenDate

section Reading

variable {n : Nat} {s r : List Char} {hyphens : Bool} {d : Date}

theorem exists_sep (r : List Char) :
    ∃ hyphens r', r = sep '-' hyphens ++ r' ∧ (hyphens = false → r'.head? ≠ some '-') := by
  by_cases hr : r.head? = some '-'
  · exact ⟨true, r.tail, (List.cons_head?_tail hr).symm, nofun⟩
  · exact ⟨false, r, rfl, fun _ => hr⟩

theorem head?_sep (h : hyphens = false → r.head? ≠ some '-') :
    ((sep '-' hyphens ++ r).head? == some '-') = hyphens := by
  cases hyphens with
  | true => rfl
  | false => simpa [sep] using h rfl

@[simp] theorem tail_sep :
    (if hyphens = true then (sep '-' hyphens ++ r).tail else sep '-' hyphens ++ r) = r := by
  cases hyphens <;> rfl

theorem separated_bind {α : Type} {f : Nat × List Char → Option α} {a : α} (hn : 0 < n) :
    (if (hyphens && r.head? != some '-') = true then none
      else (takeNumber n (if hyphens = true then r.tail else r)).bind f) = some a ↔
      ∃ v r', v < 10 ^ n ∧ r = sep '-' hyphens ++ (Text.decimal n v ++ r') ∧
        f (v, r') = some a := by
  by_cases hr : ∃ r', r = sep '-' hyphens ++ r'
  · obtain ⟨r, rfl⟩ := hr
    have hhead : ¬(hyphens && (sep '-' hyphens ++ r).head? != some '-') = true := by
      cases hyphens <;> simp [sep]
    simp only [if_neg hhead, tail_sep, takeNumber_bind hn, List.append_cancel_left_eq]
  · have hhead : (hyphens && r.head? != some '-') = true := by
      cases hyphens with
      | false => exact absurd ⟨r, rfl⟩ hr
      | true =>
        rw [Bool.true_and, bne_iff_ne]
        exact fun h => hr ⟨r.tail, (List.cons_head?_tail h).symm⟩
    rw [if_pos hhead]
    exact ⟨nofun, fun ⟨v, r', _, h, _⟩ => absurd ⟨_, h⟩ hr⟩

section Year

variable {year : Nat} (hyear : year < 10 ^ 4)

include hyear

theorem readIsoDate_monthly (hr : hyphens = false → r.head? ≠ some '-') (hW : r.head? ≠ some 'W') :
    readIsoDate n (Text.decimal 4 year ++ (sep '-' hyphens ++ r)) = some d ↔
      ∃ month r', month < 10 ^ 2 ∧ r = Text.decimal 2 month ++ r' ∧
        ∃ day r'', day < 10 ^ 2 ∧ r' = sep '-' hyphens ++ (Text.decimal 2 day ++ r'') ∧
          some ⟨year, month, day⟩ = some d := by
  have hno : ¬(r.head? == some 'W') = true := by simpa using hW
  simp only [readIsoDate, Option.bind_eq_bind]
  rw [takeNumber_decimal (by decide) hyear]
  simp only [Option.bind_some, head?_sep hr, tail_sep, if_neg hno]
  rw [takeNumber_bind (by decide)]
  simp only [separated_bind (n := 2) (by decide)]

theorem readIsoDate_weekly :
    readIsoDate n (Text.decimal 4 year ++ (sep '-' hyphens ++ 'W' :: r)) = some d ↔
      ∃ week r', week < 10 ^ 2 ∧ r = Text.decimal 2 week ++ r' ∧
        if 7 + (sep '-' hyphens).length < n then
          ∃ day r'', day < 10 ^ 1 ∧ r' = sep '-' hyphens ++ (Text.decimal 1 day ++ r'') ∧
            isoWeekDate? year week day = some d
        else isoWeekDate? year week 1 = some d := by
  have hr : hyphens = false → ('W' :: r).head? ≠ some '-' := fun _ => by simp
  simp only [readIsoDate, Option.bind_eq_bind]
  rw [takeNumber_decimal (by decide) hyear]
  simp only [Option.bind_some, head?_sep hr, tail_sep, List.head?_cons, List.tail_cons,
    beq_self_eq_true, if_true]
  rw [takeNumber_bind (by decide)]
  refine exists_congr fun week => exists_congr fun r' => and_congr_right fun hweek =>
    and_congr_right fun hr => ?_
  have hlength : (Text.decimal 4 year ++ (sep '-' hyphens ++ 'W' :: r)).length - r'.length =
      7 + (sep '-' hyphens).length := by
    simp only [hr, List.length_append, List.length_cons, length_decimal (by decide) hyear,
      length_decimal (by decide) hweek]
    omega
  simp only [hlength]
  by_cases hn : 7 + (sep '-' hyphens).length < n
  · rw [if_pos hn, if_pos hn]
    exact separated_bind (by decide)
  · rw [if_neg hn, if_neg hn]

end Year

/-- What is read at the start of a text as a date is exactly what is written there as one. -/
theorem readIsoDate_eq_some :
    readIsoDate n s = some d ↔
      ∃ hyphens, ∃ w : WrittenDate, ∃ r, s = w.text hyphens ++ r ∧ w.Fits ∧ w.EndsBy hyphens n ∧
        w.date? = some d := by
  constructor
  · intro h
    obtain ⟨⟨year, r⟩, hstart, -⟩ := Option.bind_eq_some_iff.1 h
    obtain ⟨hyear, rfl⟩ := (takeNumber_eq_some (by decide)).1 hstart
    obtain ⟨hyphens, r, rfl, hr⟩ := exists_sep r
    by_cases hW : r.head? = some 'W'
    · obtain ⟨r, rfl⟩ := List.head?_eq_some_iff.1 hW
      obtain ⟨week, r, hweek, rfl, hd⟩ := (readIsoDate_weekly hyear).1 h
      split_ifs at hd with hn
      · obtain ⟨day, r, hday, rfl, hd⟩ := hd
        refine ⟨hyphens, .weekly year week (some day), r, ?_, ⟨hyear, hweek, ?_⟩, hn, hd⟩
        · simp only [WrittenDate.text, List.append_assoc, List.cons_append]
        · simpa using hday
      · refine ⟨hyphens, .weekly year week none, r, ?_, ⟨hyear, hweek, nofun⟩, not_lt.1 hn, hd⟩
        simp only [WrittenDate.text, List.append_assoc, List.cons_append]
    · obtain ⟨month, r, hmonth, rfl, day, r, hday, rfl, hd⟩ :=
        (readIsoDate_monthly hyear hr hW).1 h
      refine ⟨hyphens, .monthly year month day, r, ?_, ⟨hyear, hmonth, hday⟩, trivial, hd⟩
      simp only [WrittenDate.text, List.append_assoc]
  · rintro ⟨hyphens, w, r, rfl, hw, hn, hd⟩
    cases w with
    | monthly year month day =>
      obtain ⟨hyear, hmonth, hday⟩ := hw
      simp only [WrittenDate.text, List.append_assoc]
      refine (readIsoDate_monthly hyear (fun _ => head?_decimal (by decide) rfl)
        (head?_decimal (by decide) rfl)).2 ?_
      exact ⟨month, _, hmonth, rfl, day, r, hday, rfl, hd⟩
    | weekly year week day =>
      obtain ⟨hyear, hweek, hday⟩ := hw
      cases day with
      | none =>
        simp only [WrittenDate.text, List.append_assoc, List.cons_append]
        refine (readIsoDate_weekly hyear).2 ⟨week, r, hweek, rfl, ?_⟩
        rw [if_neg (not_lt.2 hn)]
        exact hd
      | some day =>
        simp only [WrittenDate.text, List.append_assoc, List.cons_append]
        refine (readIsoDate_weekly hyear).2 ⟨week, _, hweek, rfl, ?_⟩
        rw [WrittenDate.EndsBy] at hn
        rw [if_pos hn]
        exact ⟨day, r, hday day rfl, rfl, hd⟩

end Reading

section Date

variable {d : Date} {s : String} {hyphens : Bool}

theorem date?_eq_some {w : WrittenDate} (hd : d.IsDay) : w.date? = some d ↔ w.Names d := by
  cases w with
  | monthly year month day => rw [WrittenDate.date?, Option.some.injEq, eq_comm]; rfl
  | weekly year week day => exact isoWeekDate?_eq_some hd

theorem date_check_eq_ok {d' : Date} : d.check = .ok d' ↔ d.IsDay ∧ d' = d := by
  unfold Date.check
  split_ifs with hyear hmonth hday
  · refine ⟨nofun, fun ⟨h, _⟩ => ?_⟩
    have := h.one_le_year
    have := h.year_le
    omega
  · refine ⟨nofun, fun ⟨h, _⟩ => ?_⟩
    have := h.one_le_month
    have := h.month_le
    omega
  · refine ⟨nofun, fun ⟨h, _⟩ => ?_⟩
    have := h.one_le_day
    have := h.day_le
    omega
  · rw [not_or, not_lt, not_lt] at hyear hmonth hday
    rw [Except.ok.injEq, eq_comm]
    exact ⟨fun h => ⟨⟨⟨hmonth.1, hmonth.2, hday.1, hday.2⟩, hyear.1, hyear.2⟩, h⟩, And.right⟩

/-- A text of one date. Only after a date without hyphens that names its day, two octets more may
follow. -/
def DateText (s : List Char) (d : Date) : Prop :=
  ∃ hyphens, ∃ w : WrittenDate, ∃ r, s = w.text hyphens ++ r ∧ w.Fits ∧ w.Names d ∧ d.IsDay ∧
    (r = [] ∨ hyphens = false ∧ w.HasDay ∧ r.length = 2)

theorem length_text {w : WrittenDate} (hw : w.Fits) :
    (w.text hyphens).length = w.width hyphens := by
  cases w with
  | monthly year month day =>
    obtain ⟨hyear, hmonth, hday⟩ := hw
    simp only [WrittenDate.text, List.length_append, length_decimal (by decide) hyear,
      length_decimal (by decide) hmonth, length_decimal (by decide) hday]
    cases hyphens <;> rfl
  | weekly year week day =>
    obtain ⟨hyear, hweek, hday⟩ := hw
    cases day with
    | none =>
      simp only [WrittenDate.text, List.length_append, List.length_cons,
        length_decimal (by decide) hyear, length_decimal (by decide) hweek]
      cases hyphens <;> rfl
    | some day =>
      simp only [WrittenDate.text, List.length_append, List.length_cons,
        length_decimal (by decide) hyear, length_decimal (by decide) hweek,
        length_decimal (by decide) (hday day rfl)]
      cases hyphens <;> rfl

theorem width_add_eq {w : WrittenDate} {n : Nat} (m : Nat) (hn : w.width hyphens + m = n) :
    (n = 7 ∨ n = 8 ∨ n = 10) ∧ w.EndsBy hyphens n ↔
      m = 0 ∨ hyphens = false ∧ w.HasDay ∧ m = 2 := by
  rcases w with _ | ⟨_, _, _ | _⟩ <;> cases hyphens <;>
    simp only [WrittenDate.width, WrittenDate.EndsBy, WrittenDate.HasDay, sep] at hn ⊢ <;>
    simp <;> omega

/-- A date leaf reads a text exactly if it is a text of one date. -/
theorem date_ofIso_eq_ok : Date.ofIso s = .ok d ↔ DateText (octetChars s) d := by
  simp only [Date.ofIso]
  generalize octetChars s = cs
  constructor
  · intro h
    split at h
    next hn =>
      split at h
      next d' hread =>
        obtain ⟨hd, rfl⟩ := date_check_eq_ok.1 h
        obtain ⟨hyphens, w, r, rfl, hw, hend, hdate⟩ := readIsoDate_eq_some.1 hread
        rw [List.length_append, length_text hw] at hn hend
        have hr := (width_add_eq r.length rfl).1 ⟨hn, hend⟩
        exact ⟨hyphens, w, r, rfl, hw, (date?_eq_some hd).1 hdate, hd,
          hr.imp_left List.length_eq_zero_iff.1⟩
      next => cases h
    next => cases h
  · rintro ⟨hyphens, w, r, rfl, hw, hdate, hd, hr⟩
    have hlength : w.width hyphens + r.length = (w.text hyphens ++ r).length := by
      rw [List.length_append, length_text hw]
    obtain ⟨hn, hend⟩ :=
      (width_add_eq r.length hlength).2 (hr.imp_left List.length_eq_zero_iff.2)
    rw [if_pos hn, readIsoDate_eq_some.2 ⟨hyphens, w, r, rfl, hw, hend, (date?_eq_some hd).2 hdate⟩]
    exact date_check_eq_ok.2 ⟨hd, rfl⟩

end Date

end WebForm
