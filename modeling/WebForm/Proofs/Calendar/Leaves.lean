import Mathlib
import WebForm.Form.Leaf
import WebForm.Proofs.Calendar.Moments

/-!
# Leaves for dates and times

A leaf for dates, times, or dates with a time takes exactly the texts of one, and gives it. Any
other text is one error. Among the texts are the plain ones: years, months and days with hyphens,
and hours and minutes, or also seconds, with colons. These have no distance from universal time.
-/
namespace WebForm

/-- `YYYY-MM-DD`. -/
def PlainDate (s : String) (d : Date) : Prop := d.IsDay ∧ s = d.toIso

/-- `HH:MM` or `HH:MM:SS`. -/
inductive PlainTime : String → Time → Prop
  | minutes {hour minute : Nat} (hhour : hour ≤ 23) (hminute : minute ≤ 59) :
      PlainTime (twoDigits hour ++ ":" ++ twoDigits minute) ⟨hour, minute, 0, 0, none⟩
  | seconds {hour minute second : Nat} (hhour : hour ≤ 23) (hminute : minute ≤ 59)
      (hsecond : second ≤ 59) :
      PlainTime (twoDigits hour ++ ":" ++ twoDigits minute ++ ":" ++ twoDigits second)
        ⟨hour, minute, second, 0, none⟩

/-- A plain date, a T and a plain time. -/
def PlainDateTime (s : String) (t : DateTime) : Prop :=
  ∃ date time, PlainDate date t.date ∧ PlainTime time t.time ∧ s = date ++ "T" ++ time

section Plain

variable {s : String} {d : Date} {t : Time}

theorem octetChars_twoDigits (n : Nat) : octetChars (twoDigits n) = Text.decimal 2 n :=
  octetChars_decimal 2 n

theorem octetChars_toIso (d : Date) :
    octetChars d.toIso = (WrittenDate.monthly d.year d.month d.day).text true := by
  have hhyphen : octetChars "-" = sep '-' true := rfl
  simp only [Date.toIso, octetChars_append, octetChars_decimal, octetChars_twoDigits, hhyphen,
    WrittenDate.text, List.append_assoc]

theorem daysInMonth_le (year month : Nat) : daysInMonth year month ≤ 31 := by
  unfold daysInMonth
  split_ifs <;> decide

theorem Date.IsDay.fits (h : d.IsDay) : (WrittenDate.monthly d.year d.month d.day).Fits := by
  have hyear := h.year_le
  have hmonth := h.month_le
  have hday := h.day_le.trans (daysInMonth_le _ _)
  exact ⟨by omega, by omega, by omega⟩

theorem dateText_of_plain (h : PlainDate s d) : DateText (octetChars s) d := by
  obtain ⟨hd, rfl⟩ := h
  refine ⟨true, .monthly d.year d.month d.day, [], ?_, hd.fits, rfl, hd, .inl rfl⟩
  rw [octetChars_toIso, List.append_nil]

theorem isZoneMark_of_isDigit {c : Char} (h : c.isDigit = true) : isZoneMark c = false := by
  have hplus : c ≠ '+' := ne_of_isDigit h rfl
  have hminus : c ≠ '-' := ne_of_isDigit h rfl
  have hZ : c ≠ 'Z' := ne_of_isDigit h rfl
  simp [isZoneMark, hplus, hminus, hZ]

def colonParts (parts : List Nat) : List Char :=
  parts.flatMap fun v => sep ':' true ++ Text.decimal 2 v

theorem clockRest_colonParts {parts : List Nat} {k : Nat} (hk : parts.length ≤ k)
    (hparts : ∀ v ∈ parts, v < 10 ^ 2) :
    ClockRest nul true k (colonParts parts) parts 0 true := by
  induction parts generalizing k with
  | nil => exact .nothing
  | cons v parts ih =>
    obtain ⟨k, rfl⟩ := Nat.exists_eq_add_of_le' (Nat.one_le_of_lt hk)
    rw [colonParts, List.flatMap_cons, ← colonParts, List.append_assoc]
    exact .part (hparts v List.mem_cons_self)
      (ih (Nat.le_of_succ_le_succ hk) fun v hv => hparts v (List.mem_cons_of_mem _ hv))

theorem isoTimeText_colonParts (hour : Nat) (parts : List Nat) (hhour : hour < 10 ^ 2)
    (hlength : parts.length ≤ 2) (hparts : ∀ v ∈ parts, v < 10 ^ 2) :
    IsoTimeText (Text.decimal 2 hour ++ colonParts parts) (.ofParts (hour :: parts) 0 true)
      none := by
  refine ⟨_, [], (List.append_nil _).symm, fun c hc => ?_, ?_, .none, fun _ => rfl⟩
  · rcases List.mem_append.1 hc with hc | hc
    · exact isZoneMark_of_isDigit (isDigit_of_mem_padded hc)
    · obtain ⟨v, -, hc⟩ := List.mem_flatMap.1 hc
      rcases List.mem_append.1 hc with hc | hc
      · obtain rfl := List.mem_singleton.1 hc
        rfl
      · exact isZoneMark_of_isDigit (isDigit_of_mem_padded hc)
  · exact ⟨true, hour, _, parts, 0, true, hhour, rfl, clockRest_colonParts hlength hparts, rfl⟩

theorem PlainTime.offset_eq_none (h : PlainTime s t) : t.offset = none := by
  cases h <;> rfl

theorem timeText_of_plain (h : PlainTime s t) : TimeText (octetChars s) t := by
  have hcolon : octetChars ":" = sep ':' true := rfl
  cases h with
  | @minutes hour minute hhour hminute =>
    have htext := isoTimeText_colonParts hour [minute] (by omega)
      (Nat.le_succ 1) (by simp; omega)
    refine ⟨.ofParts [hour, minute] 0 true, none, ?_, rfl, hhour, hminute, Nat.zero_le _, nofun⟩
    simpa [colonParts, octetChars_append, octetChars_twoDigits, hcolon] using htext
  | @seconds hour minute second hhour hminute hsecond =>
    have htext := isoTimeText_colonParts hour [minute, second] (by omega)
      le_rfl (by simp; omega)
    refine ⟨.ofParts [hour, minute, second] 0 true, none, ?_, rfl, hhour, hminute, hsecond, nofun⟩
    simpa [colonParts, octetChars_append, octetChars_twoDigits, hcolon] using htext

theorem dateTimeText_of_plain {m : DateTime} (h : PlainDateTime s m) :
    DateTimeText (octetChars s) m := by
  obtain ⟨date, time, ⟨hd, rfl⟩, htime, rfl⟩ := h
  have hT : octetChars "T" = ['T'] := rfl
  refine ⟨true, .monthly m.date.year m.date.month m.date.day, 'T' :: octetChars time, ?_, hd.fits,
    trivial, rfl, hd, .inr ⟨'T', octetChars time, rfl, timeText_of_plain htime⟩⟩
  rw [octetChars_append, octetChars_append, octetChars_toIso, hT, List.append_assoc,
    List.singleton_append]

end Plain

section Leaf

variable {α : Type} {read : String → Except CalendarFault α} {make : α → Value} {f : ValueField}
  {v : Value}

def calendarRules (read : String → Except CalendarFault α) (make : α → Value) : LeafRules :=
  .ofText (.custom ∘ Cause.calendar) fun s => (read s).map make

theorem calendarRules_eq_ok :
    (calendarRules read make).ofValue f = .ok v ↔ ∃ a, v = make a ∧ read f.value = .ok a := by
  change ((read f.value).map make).mapError _ = _ ↔ _
  cases read f.value with
  | error fault => exact ⟨nofun, fun ⟨_, _, h⟩ => nomatch h⟩
  | ok a =>
    constructor
    · intro h
      exact ⟨a, (Except.ok.inj h).symm, rfl⟩
    · rintro ⟨_, rfl, h⟩
      obtain rfl := Except.ok.inj h
      rfl

theorem calendarRules_fail (h : ∀ v, (calendarRules read make).ofValue f ≠ .ok v) :
    ∃ fault, (calendarRules read make).ofValue f =
      .error (.errors [⟨.custom (.calendar fault), .value, none, none⟩]) := by
  cases hread : read f.value with
  | error fault =>
    refine ⟨fault, ?_⟩
    change ((read f.value).map make).mapError _ = _
    rw [hread]
    rfl
  | ok a => exact absurd (calendarRules_eq_ok.2 ⟨a, rfl, hread⟩) (h _)

theorem date_rules : Leaf.date.rules = calendarRules Date.ofIso .date := rfl

theorem time_rules : Leaf.time.rules = calendarRules Time.ofIso .time := rfl

theorem dateTime_rules : Leaf.dateTime.rules = calendarRules DateTime.ofIso .dateTime := rfl

/-- The leaves take exactly the texts of a date, a time, or a date with a time, and give what is
written there. Plain texts are among them. Any other text is one error. -/
theorem calendar_leaves_exact (f : ValueField) :
    ((∀ v, Leaf.date.rules.ofValue f = .ok v ↔
        ∃ d, v = .date d ∧ DateText (octetChars f.value) d) ∧
      ∀ d, PlainDate f.value d → Leaf.date.rules.ofValue f = .ok (.date d)) ∧
    ((∀ v, Leaf.time.rules.ofValue f = .ok v ↔
        ∃ t, v = .time t ∧
          ∃ r, (octetChars f.value = r ∨ octetChars f.value = 'T' :: r) ∧ TimeText r t) ∧
      ∀ t, PlainTime f.value t →
        t.offset = none ∧ Leaf.time.rules.ofValue f = .ok (.time t)) ∧
    ((∀ v, Leaf.dateTime.rules.ofValue f = .ok v ↔
        ∃ t, v = .dateTime t ∧ DateTimeText (octetChars f.value) t) ∧
      ∀ t, PlainDateTime f.value t →
        t.time.offset = none ∧ Leaf.dateTime.rules.ofValue f = .ok (.dateTime t)) ∧
    ∀ leaf ∈ [Leaf.date, Leaf.time, Leaf.dateTime], (∀ v, leaf.rules.ofValue f ≠ .ok v) →
      ∃ fault, leaf.rules.ofValue f =
        .error (.errors [⟨.custom (.calendar fault), .value, none, none⟩]) := by
  have hdate (v : Value) : Leaf.date.rules.ofValue f = .ok v ↔
      ∃ d, v = .date d ∧ DateText (octetChars f.value) d := by
    simp only [date_rules, calendarRules_eq_ok, date_ofIso_eq_ok]
  have htime (v : Value) : Leaf.time.rules.ofValue f = .ok v ↔
      ∃ t, v = .time t ∧
        ∃ r, (octetChars f.value = r ∨ octetChars f.value = 'T' :: r) ∧ TimeText r t := by
    simp only [time_rules, calendarRules_eq_ok, time_ofIso_eq_ok]
  have hdateTime (v : Value) : Leaf.dateTime.rules.ofValue f = .ok v ↔
      ∃ t, v = .dateTime t ∧ DateTimeText (octetChars f.value) t := by
    simp only [dateTime_rules, calendarRules_eq_ok, dateTime_ofIso_eq_ok]
  refine ⟨⟨hdate, fun d h => ?_⟩, ⟨htime, fun t h => ⟨?_, ?_⟩⟩, ⟨hdateTime, fun t h => ⟨?_, ?_⟩⟩,
    fun leaf hleaf h => ?_⟩
  · exact (hdate _).2 ⟨d, rfl, dateText_of_plain h⟩
  · exact h.offset_eq_none
  · exact (htime _).2 ⟨t, rfl, _, .inl rfl, timeText_of_plain h⟩
  · obtain ⟨_, _, -, h, -⟩ := h
    exact h.offset_eq_none
  · exact (hdateTime _).2 ⟨t, rfl, dateTimeText_of_plain h⟩
  · simp only [List.mem_cons, List.not_mem_nil, or_false] at hleaf
    rcases hleaf with rfl | rfl | rfl <;> exact calendarRules_fail h

/-- The last day of February is a date in a leap year only. It is also read without hyphens,
although such a text is not plain. -/
theorem leap_day_exact :
    (PlainDate "2024-02-29" ⟨2024, 2, 29⟩ ∧
      Leaf.date.rules.ofValue (.ofText "born" "2024-02-29") = .ok (.date ⟨2024, 2, 29⟩)) ∧
    (PlainTime "09:30" ⟨9, 30, 0, 0, none⟩ ∧
      Leaf.time.rules.ofValue (.ofText "at" "09:30") = .ok (.time ⟨9, 30, 0, 0, none⟩)) ∧
    (PlainDateTime "2024-02-29T09:30" ⟨⟨2024, 2, 29⟩, ⟨9, 30, 0, 0, none⟩⟩ ∧
      Leaf.dateTime.rules.ofValue (.ofText "from" "2024-02-29T09:30") =
        .ok (.dateTime ⟨⟨2024, 2, 29⟩, ⟨9, 30, 0, 0, none⟩⟩)) ∧
    ((∀ v, Leaf.date.rules.ofValue (.ofText "born" "2023-02-29") ≠ .ok v) ∧
      ∃ fault, Leaf.date.rules.ofValue (.ofText "born" "2023-02-29") =
        .error (.errors [⟨.custom (.calendar fault), .value, none, none⟩])) ∧
    (¬∃ d, PlainDate "20240229" d) ∧
      Leaf.date.rules.ofValue (.ofText "born" "20240229") = .ok (.date ⟨2024, 2, 29⟩) := by
  have hdate : PlainDate "2024-02-29" ⟨2024, 2, 29⟩ :=
    ⟨⟨⟨by decide, by decide, by decide, by decide⟩, by decide, by decide⟩, by decide⟩
  have htime : PlainTime "09:30" ⟨9, 30, 0, 0, none⟩ :=
    @PlainTime.minutes 9 30 (by decide) (by decide)
  have hdateTime : PlainDateTime "2024-02-29T09:30" ⟨⟨2024, 2, 29⟩, ⟨9, 30, 0, 0, none⟩⟩ :=
    ⟨_, _, hdate, htime, by decide⟩
  have hnone (v : Value) : Leaf.date.rules.ofValue (.ofText "born" "2023-02-29") ≠ .ok v := by
    intro h
    cases h
  have hbasic : ¬∃ d, PlainDate "20240229" d := by
    rintro ⟨d, hd, h⟩
    have hlength := congrArg (List.length ∘ octetChars) h
    rw [Function.comp_apply, Function.comp_apply, octetChars_toIso, length_text hd.fits] at hlength
    exact absurd hlength (by change ¬8 = 10; decide)
  obtain ⟨⟨-, hday⟩, -⟩ := calendar_leaves_exact (.ofText "born" "2024-02-29")
  obtain ⟨-, ⟨-, hhour⟩, -⟩ := calendar_leaves_exact (.ofText "at" "09:30")
  obtain ⟨-, -, ⟨-, hmoment⟩, -⟩ := calendar_leaves_exact (.ofText "from" "2024-02-29T09:30")
  obtain ⟨-, -, -, hfail⟩ := calendar_leaves_exact (.ofText "born" "2023-02-29")
  exact ⟨⟨hdate, hday _ hdate⟩, ⟨htime, (hhour _ htime).2⟩, ⟨hdateTime, (hmoment _ hdateTime).2⟩,
    ⟨hnone, hfail _ List.mem_cons_self hnone⟩, hbasic, rfl⟩

end Leaf

end WebForm
