import Mathlib
import WebForm.Calendar.Iso

/-!
# Days by number, by month and by ISO week

The days of the calendar are numbered from the first of January of the year 1, without gaps. A day
is found again from its year and what its number leaves of it. An ISO week begins on a Monday and
belongs to the year that has its Thursday; the day that a week, its year and a day of the week name
is the one with the number that they add up to.
-/
namespace WebForm

def daysInYear (year : Nat) : Nat := if isLeap year then 366 else 365

/-- A day of a year, whether the calendar has this year or not. -/
structure Date.InYear (d : Date) : Prop where
  one_le_month : 1 ≤ d.month
  month_le : d.month ≤ 12
  one_le_day : 1 ≤ d.day
  day_le : d.day ≤ daysInMonth d.year d.month

structure Date.IsDay (d : Date) : Prop extends d.InYear where
  one_le_year : 1 ≤ d.year
  year_le : d.year ≤ 9999

section Numbers

variable {year y z m n : Nat} {d e : Date}

theorem isLeap_iff : isLeap year = true ↔ 4 ∣ year ∧ (¬100 ∣ year ∨ 400 ∣ year) := by
  simp [isLeap, Nat.dvd_iff_mod_eq_zero]

theorem daysBeforeYear_succ (hyear : 1 ≤ year) :
    daysBeforeYear (year + 1) = daysBeforeYear year + daysInYear year := by
  obtain ⟨y, rfl⟩ := Nat.exists_eq_add_of_le' hyear
  have hcentury : 100 ∣ y + 1 → 4 ∣ y + 1 := (by decide : 4 ∣ 100).trans
  have hfourth : 400 ∣ y + 1 → 100 ∣ y + 1 := (by decide : 100 ∣ 400).trans
  have hle : y / 100 ≤ y := Nat.div_le_self y 100
  simp only [daysBeforeYear, daysInYear, isLeap_iff, Nat.add_sub_cancel, Nat.succ_div]
  generalize y / 4 = a, y / 100 = b, y / 400 = c at hle ⊢
  by_cases h4 : 4 ∣ y + 1
  · by_cases h100 : 100 ∣ y + 1
    · by_cases h400 : 400 ∣ y + 1
      · simp only [h4, h100, h400, if_true, not_true_eq_false, or_true, and_true]
        omega
      · simp only [h4, h100, h400, if_true, if_false, not_true_eq_false, or_false, and_false]
        omega
    · have h400 := mt hfourth h100
      simp only [h4, h100, h400, if_true, if_false, not_false_eq_true, true_or, and_true]
      omega
  · have h100 := mt hcentury h4
    have h400 := mt hfourth h100
    simp only [h4, h100, h400, if_false, false_and]
    omega

theorem daysBeforeYear_add_le (hy : 1 ≤ y) (hyz : y < z) :
    daysBeforeYear y + daysInYear y ≤ daysBeforeYear z := by
  induction z, hyz using Nat.le_induction with
  | base => exact (daysBeforeYear_succ hy).ge
  | succ z hyz ih =>
    rw [daysBeforeYear_succ (by omega)]
    omega

@[simp] theorem daysBeforeMonth_one : daysBeforeMonth year 1 = 0 := rfl

theorem daysBeforeMonth_succ (hm : 1 ≤ m) :
    daysBeforeMonth year (m + 1) = daysBeforeMonth year m + daysInMonth year m := by
  obtain ⟨m, rfl⟩ := Nat.exists_eq_add_of_le' hm
  simp only [daysBeforeMonth, Nat.add_sub_cancel, List.range_succ, List.foldl_concat]

theorem daysBeforeMonth_add_le (hm : 1 ≤ m) (hmn : m < n) :
    daysBeforeMonth year m + daysInMonth year m ≤ daysBeforeMonth year n := by
  induction n, hmn using Nat.le_induction with
  | base => exact (daysBeforeMonth_succ hm).ge
  | succ n hmn ih =>
    rw [daysBeforeMonth_succ (by omega)]
    omega

theorem daysBeforeMonth_year : daysBeforeMonth year 13 = daysInYear year := by
  simp only [daysBeforeMonth, List.range_succ, List.range_zero, daysInYear, daysInMonth]
  split_ifs <;> rfl

theorem Date.InYear.number_le (h : d.InYear) :
    daysBeforeMonth d.year d.month + d.day ≤ daysInYear d.year := by
  rw [← daysBeforeMonth_year]
  exact (Nat.add_le_add_left h.day_le _).trans
    (daysBeforeMonth_add_le h.one_le_month (Nat.lt_succ_of_le h.month_le))

theorem Date.ordinal_lt_of_month_lt (hd : d.InYear) (he : e.InYear) (hyear : d.year = e.year)
    (hmonth : d.month < e.month) : d.ordinal < e.ordinal := by
  have hle : daysBeforeMonth d.year d.month + daysInMonth d.year d.month ≤
      daysBeforeMonth d.year e.month := daysBeforeMonth_add_le hd.one_le_month hmonth
  have hday := hd.day_le
  have hpositive := he.one_le_day
  unfold Date.ordinal
  rw [← hyear]
  omega

theorem Date.ordinal_lt_of_year_lt (hd : d.InYear) (he : e.InYear) (hone : 1 ≤ d.year)
    (hyear : d.year < e.year) : d.ordinal < e.ordinal := by
  have hle := daysBeforeYear_add_le hone hyear
  have hnumber := hd.number_le
  have hpositive := he.one_le_day
  unfold Date.ordinal
  omega

theorem Date.ordinal_inj (hd : d.InYear) (he : e.InYear) (hone : 1 ≤ d.year) (hone' : 1 ≤ e.year)
    (h : d.ordinal = e.ordinal) : d = e := by
  have hyear : d.year = e.year := by
    rcases Nat.lt_trichotomy d.year e.year with hlt | heq | hlt
    · exact absurd h (Date.ordinal_lt_of_year_lt hd he hone hlt).ne
    · exact heq
    · exact absurd h (Date.ordinal_lt_of_year_lt he hd hone' hlt).ne'
  have hmonth : d.month = e.month := by
    rcases Nat.lt_trichotomy d.month e.month with hlt | heq | hlt
    · exact absurd h (Date.ordinal_lt_of_month_lt hd he hyear hlt).ne
    · exact heq
    · exact absurd h (Date.ordinal_lt_of_month_lt he hd hyear.symm hlt).ne'
  have hday : d.day = e.day := by
    unfold Date.ordinal at h
    rw [hyear, hmonth] at h
    omega
  exact (Date.mk.injEq ..).mpr ⟨hyear, hmonth, hday⟩

theorem exists_findRev?_range {p : Nat → Bool} {k : Nat} (hk : 0 < k) (h : p 0 = true) :
    ∃ m, (List.range k).findRev? p = some m ∧ m < k ∧ p m = true ∧
      ∀ j, m < j → j < k → p j = false := by
  induction k with
  | zero => exact absurd hk (lt_irrefl 0)
  | succ k ih =>
    rw [List.findRev?_eq_find?_reverse, List.range_succ, List.reverse_append]
    by_cases hp : p k = true
    · refine ⟨k, List.find?_cons_of_pos hp, Nat.lt_succ_self k, hp, fun j hj hj' => ?_⟩
      omega
    · have hk : 0 < k := by
        rcases Nat.eq_zero_or_pos k with rfl | hk
        · exact absurd h hp
        · exact hk
      obtain ⟨m, hm, hmk, hpm, hlast⟩ := ih hk
      rw [List.findRev?_eq_find?_reverse] at hm
      refine ⟨m, (List.find?_cons_of_neg hp).trans hm, hmk.trans (Nat.lt_succ_self k), hpm,
        fun j hj hj' => ?_⟩
      rcases Nat.lt_succ_iff_lt_or_eq.1 hj' with hlt | rfl
      · exact hlast j hj hlt
      · exact Bool.eq_false_iff.2 hp

theorem ofDayOfYear_spec (year n : Nat) (hn : n < daysInYear year) :
    (Date.ofDayOfYear year n).InYear ∧ (Date.ofDayOfYear year n).year = year ∧
      (Date.ofDayOfYear year n).ordinal = daysBeforeYear year + n + 1 := by
  obtain ⟨m, hfind, hm, hbefore, hlast⟩ := exists_findRev?_range
    (p := fun m => decide (daysBeforeMonth year (m + 1) ≤ n)) (k := 12) (by decide) rfl
  have hbefore := of_decide_eq_true hbefore
  have hafter : n < daysBeforeMonth year (m + 1 + 1) := by
    rcases Nat.lt_or_ge (m + 1) 12 with hlt | hge
    · exact not_le.1 (of_decide_eq_false (hlast (m + 1) (Nat.lt_succ_self m) hlt))
    · obtain rfl : m = 11 := by omega
      rwa [daysBeforeMonth_year]
  rw [daysBeforeMonth_succ (Nat.le_add_left 1 m)] at hafter
  have hdate : Date.ofDayOfYear year n = ⟨year, m + 1, n - daysBeforeMonth year (m + 1) + 1⟩ := by
    simp only [Date.ofDayOfYear, hfind, Option.getD_some]
  rw [hdate]
  refine ⟨⟨Nat.le_add_left 1 m, hm, Nat.le_add_left 1 _, ?_⟩, rfl, ?_⟩
  · change n - daysBeforeMonth year (m + 1) + 1 ≤ daysInMonth year (m + 1)
    omega
  · change daysBeforeYear year + daysBeforeMonth year (m + 1) +
      (n - daysBeforeMonth year (m + 1) + 1) = _
    omega

end Numbers

section Weeks

variable {year week day : Nat} {d : Date}

/-- The first Monday of a year's weeks is a Monday, as the day with number 1 is, and three days
before one of the first seven days of the year. -/
theorem firstWeekMonday_spec (year : Nat) :
    firstWeekMonday year % 7 = 1 ∧ (daysBeforeYear year : Int) < firstWeekMonday year + 3 ∧
      firstWeekMonday year + 3 ≤ daysBeforeYear year + 7 := by
  simp only [firstWeekMonday]
  split_ifs <;> omega

def weekDayNumber (year week day : Nat) : Int :=
  firstWeekMonday year + ((week : Int) - 1) * 7 + day - 1

theorem daysInYear_ge (year : Nat) : 365 ≤ daysInYear year := by
  unfold daysInYear
  split_ifs <;> decide

/-- A day is found from its year and its number. -/
theorem ofDayOfYear_number (year : Nat) (number : Int)
    (hlower : (daysBeforeYear year : Int) < number)
    (hupper : number ≤ daysBeforeYear year + daysInYear year) :
    let d := Date.ofDayOfYear year (number - (daysBeforeYear year + 1)).toNat
    d.InYear ∧ d.year = year ∧ (d.ordinal : Int) = number := by
  obtain ⟨hd, hyear, hordinal⟩ :=
    ofDayOfYear_spec year (number - (daysBeforeYear year + 1)).toNat (by omega)
  refine ⟨hd, hyear, ?_⟩
  rw [hordinal]
  omega

theorem ofIsoWeek_spec (year week day : Nat) (hyear : 1 ≤ year) (hweek : 1 ≤ week)
    (hweek' : week ≤ 53) (hday : 1 ≤ day) (hday' : day ≤ 7) :
    (Date.ofIsoWeek year week day).InYear ∧ 1 ≤ (Date.ofIsoWeek year week day).year ∧
      ((Date.ofIsoWeek year week day).ordinal : Int) = weekDayNumber year week day := by
  obtain ⟨hmonday, hlower, hupper⟩ := firstWeekMonday_spec year
  have hnext := daysBeforeYear_succ hyear
  have hlong := daysInYear_ge year
  have hnumber : firstWeekMonday year ≤ weekDayNumber year week day ∧
      weekDayNumber year week day ≤ firstWeekMonday year + 370 := by
    unfold weekDayNumber
    omega
  have hdefinition : firstWeekMonday year + ((week : Int) - 1) * 7 + day - 1 =
      weekDayNumber year week day := rfl
  simp only [Date.ofIsoWeek, hdefinition]
  generalize weekDayNumber year week day = number at hnumber ⊢
  split_ifs with hbefore hafter
  · have hyear' : 1 ≤ year - 1 := by
      by_contra hone
      obtain rfl : year = 1 := by omega
      have hzero : daysBeforeYear 1 = 0 := rfl
      omega
    have hlast := daysBeforeYear_succ hyear'
    have hlong' := daysInYear_ge (year - 1)
    rw [Nat.sub_add_cancel hyear] at hlast
    obtain ⟨hd, hdyear, hordinal⟩ := ofDayOfYear_number (year - 1) number (by omega) (by omega)
    exact ⟨hd, hdyear ▸ hyear', hordinal⟩
  · have hlong' := daysInYear_ge (year + 1)
    obtain ⟨hd, hdyear, hordinal⟩ := ofDayOfYear_number (year + 1) number (by omega) (by omega)
    exact ⟨hd, hdyear ▸ Nat.le_add_left 1 year, hordinal⟩
  · obtain ⟨hd, hdyear, hordinal⟩ := ofDayOfYear_number year number (by omega) (by omega)
    exact ⟨hd, hdyear ▸ hyear, hordinal⟩

theorem firstWeekMonday_succ (hyear : 1 ≤ year) :
    firstWeekMonday (year + 1) = firstWeekMonday year + if hasLongIsoYear year then 53 * 7
      else 52 * 7 := by
  have hweekday : hasLongIsoYear year = true ↔ daysBeforeYear year % 7 = 3 ∨
      daysBeforeYear year % 7 = 2 ∧ isLeap year = true := by
    simp [hasLongIsoYear]
  simp only [firstWeekMonday, daysBeforeYear_succ hyear, hweekday, daysInYear]
  cases isLeap year <;>
    simp only [Bool.false_eq_true, and_false, or_false, and_true, if_true, if_false] <;>
    split_ifs <;> omega

/-- An ISO week of a year, a day of it from Monday, and the day of the calendar with its number. -/
structure IsWeekDay (year week day : Nat) (d : Date) : Prop where
  one_le_year : 1 ≤ year
  one_le_week : 1 ≤ week
  begins : weekDayNumber year week 1 < firstWeekMonday (year + 1)
  one_le_day : 1 ≤ day
  day_le : day ≤ 7
  number : (d.ordinal : Int) = weekDayNumber year week day

theorem begins_iff (hyear : 1 ≤ year) :
    weekDayNumber year week 1 < firstWeekMonday (year + 1) ↔
      week ≤ 53 ∧ (week = 53 → hasLongIsoYear year = true) := by
  rw [firstWeekMonday_succ hyear, weekDayNumber]
  cases hasLongIsoYear year <;> simp <;> omega

theorem isoWeekDate?_eq_some (hd : d.IsDay) :
    isoWeekDate? year week day = some d ↔ IsWeekDay year week day d := by
  unfold isoWeekDate?
  split_ifs with hweek hday hyear
  · refine ⟨nofun, fun h => ?_⟩
    have hone := h.one_le_year
    have hone' := h.one_le_week
    obtain ⟨hle, hlong⟩ := (begins_iff hone).1 h.begins
    rcases hweek with hweek | hweek | ⟨hlast, hweek | hweek⟩
    · omega
    · omega
    · omega
    · rw [hlong hlast] at hweek
      cases hweek
  · refine ⟨nofun, fun h => ?_⟩
    have hone := h.one_le_day
    have hseven := h.day_le
    omega
  · refine ⟨fun h => ?_, fun h => ?_⟩
    · obtain rfl := Option.some.inj h
      exact absurd hd.one_le_month (by decide)
    · have hone := h.one_le_year
      omega
  · have hone : 1 ≤ year := Nat.one_le_iff_ne_zero.2 hyear
    have hlong : week = 53 → hasLongIsoYear year = true := fun hlast => by
      by_contra hshort
      exact hweek (.inr (.inr ⟨hlast, .inr (by simpa using hshort)⟩))
    obtain ⟨hfound, hfoundYear, hnumber⟩ := ofIsoWeek_spec year week day hone
      (by omega) (by omega) (by omega) (by omega)
    rw [Option.some.injEq]
    constructor
    · rintro rfl
      exact ⟨hone, by omega, (begins_iff hone).2 ⟨by omega, hlong⟩, by omega, by omega, hnumber⟩
    · intro h
      exact Date.ordinal_inj hfound hd.toInYear hfoundYear hd.one_le_year
        (by exact_mod_cast hnumber.trans h.number.symm)

end Weeks

end WebForm
