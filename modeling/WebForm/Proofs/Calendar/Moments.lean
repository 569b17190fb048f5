import Mathlib
import WebForm.Proofs.Calendar.Clocks
import WebForm.Proofs.Calendar.Octets

/-!
# Dates with a time as they are written

Where a date ends is guessed from its first octets and the number of octets or digits, since any one
character may separate a time from it. A date is taken for what it is if the guess is right, and
then what follows the separator is a time.
-/
namespace WebForm

def leadingDigits (r : List Char) : Nat := (r.takeWhile Char.isDigit).length

/-- What may follow a date with a time, for the end of the date to be found. -/
def WrittenDate.StopsBefore (r : List Char) : Bool → WrittenDate → Prop
  | _, .monthly .. => True
  | true, .weekly _ _ none => r.head? = some '-' → (r[2]?).any Char.isDigit = true
  | true, .weekly _ _ (some _) => r.head?.any Char.isDigit = false
  | false, .weekly _ _ none =>
    leadingDigits r = 0 ∨ leadingDigits r ≠ 1 ∧ leadingDigits r % 2 = 1
  | false, .weekly _ _ (some _) => leadingDigits r = 0 ∨ leadingDigits r % 2 = 1

section Length

variable {n year week : Nat} {hyphens : Bool} {r : List Char}

section Week

variable (hyear : year < 10 ^ 4) (hweek : week < 10 ^ 2)

include hyear hweek

theorem dateLength_hyphens :
    dateLength (Text.decimal 4 year ++ '-' :: 'W' :: (Text.decimal 2 week ++ r)) =
      if r.head? = some '-' then
        if 8 + r.length = 9 then none
        else if (r[2]?).any Char.isDigit then some 8 else some 10
      else some 8 := by
  have hat (i : Nat) := getElem?_decimal (r := '-' :: 'W' :: (Text.decimal 2 week ++ r))
    (n := 4) (by decide) hyear i
  have hweekAt (i : Nat) := getElem?_decimal (r := r) (n := 2) (by decide) hweek i
  have hlength : (Text.decimal 4 year ++ '-' :: 'W' :: (Text.decimal 2 week ++ r)).length =
      8 + r.length := by
    simp only [List.length_append, List.length_cons, length_decimal (by decide) hyear,
      length_decimal (by decide) hweek]
    omega
  generalize Text.decimal 4 year ++ '-' :: 'W' :: (Text.decimal 2 week ++ r) = s at hat hlength ⊢
  have hfour : s[4]? = some '-' := hat 0
  have hfive : s[5]? = some 'W' := hat 1
  have height : s[8]? = r.head? := (hat 4).trans ((hweekAt 0).trans List.head?_eq_getElem?.symm)
  have hten : s[10]? = r[2]? := (hat 6).trans (hweekAt 2)
  have hseven : ¬8 + r.length = 7 := by omega
  simp only [dateLength, hlength, hfour, hfive, height, hten, if_neg hseven, if_true]

theorem dateLength_plain :
    dateLength (Text.decimal 4 year ++ 'W' :: (Text.decimal 2 week ++ r)) =
      if 7 + leadingDigits r < 9 then some (7 + leadingDigits r)
      else if (7 + leadingDigits r) % 2 = 0 then some 7 else some 8 := by
  have hfour := getElem?_decimal (r := 'W' :: (Text.decimal 2 week ++ r)) (n := 4) (by decide)
    hyear 0
  have hdrop := drop_decimal (r := 'W' :: (Text.decimal 2 week ++ r)) (n := 4) (by decide) hyear 3
  have hlength : (Text.decimal 4 year ++ 'W' :: (Text.decimal 2 week ++ r)).length =
      7 + r.length := by
    simp only [List.length_append, List.length_cons, length_decimal (by decide) hyear,
      length_decimal (by decide) hweek]
    omega
  rw [List.drop_succ_cons, drop_decimal (by decide) hweek 0, List.drop_zero] at hdrop
  generalize Text.decimal 4 year ++ 'W' :: (Text.decimal 2 week ++ r) = s at hfour hdrop hlength ⊢
  change s[4]? = some 'W' at hfour
  change s.drop 7 = r at hdrop
  have hhyphen : ¬some 'W' = some '-' := by decide
  by_cases hr : r = []
  · subst hr
    rw [dateLength, hlength]
    rfl
  · have hseven : ¬7 + r.length = 7 := by simpa using hr
    simp only [dateLength, leadingDigits, hlength, hfour, hdrop, if_neg hseven, if_neg hhyphen,
      if_true]
    rfl

end Week

theorem dateLength_monthly {month day : Nat} (hw : (WrittenDate.monthly year month day).Fits) :
    dateLength ((WrittenDate.monthly year month day).text hyphens ++ r) =
      some ((WrittenDate.monthly year month day).width hyphens) := by
  have hlength : ((WrittenDate.monthly year month day).text hyphens ++ r).length ≠ 7 := by
    rw [List.length_append, length_text hw]
    cases hyphens <;> simp only [WrittenDate.width] <;> omega
  obtain ⟨hyear, hmonth, hday⟩ := hw
  have hat (t : List Char) (i : Nat) := getElem?_decimal (r := t) (n := 4) (by decide) hyear i
  have hdigit (t : List Char) (c : Char) (hc : c.isDigit = false) :
      (Text.decimal 2 month ++ t)[0]? ≠ some c := by
    rw [← List.head?_eq_getElem?]
    exact head?_decimal (by decide) hc
  rw [dateLength, if_neg hlength]
  simp only [WrittenDate.text, List.append_assoc]
  cases hyphens with
  | true =>
    have hfive : ¬(Text.decimal 4 year ++ (sep '-' true ++ (Text.decimal 2 month ++
        (sep '-' true ++ (Text.decimal 2 day ++ r)))))[5]? = some 'W' := by
      rw [hat _ 1]
      exact hdigit _ 'W' rfl
    rw [hat _ 0, if_neg hfive]
    rfl
  | false =>
    rw [hat _ 0]
    change (if (Text.decimal 2 month ++ _)[0]? = some '-' then _
      else if (Text.decimal 2 month ++ _)[0]? = some 'W' then _ else _) = _
    rw [if_neg (hdigit _ '-' rfl), if_neg (hdigit _ 'W' rfl)]
    rfl

theorem dateLength_week (hw : (WrittenDate.weekly year week none).Fits) :
    dateLength ((WrittenDate.weekly year week none).text hyphens ++ r) = some n ∧
        (WrittenDate.weekly year week none).EndsBy hyphens n ↔
      n = (WrittenDate.weekly year week none).width hyphens ∧
        (WrittenDate.weekly year week none).StopsBefore r hyphens := by
  obtain ⟨hyear, hweek, -⟩ := hw
  simp only [WrittenDate.text, List.append_assoc, List.cons_append]
  cases hyphens with
  | true =>
    rw [sep_true, List.singleton_append, dateLength_hyphens hyear hweek]
    simp only [WrittenDate.EndsBy, WrittenDate.width, WrittenDate.StopsBefore, sep_true,
      List.length_singleton]
    split_ifs with hhead hone htwo
    · have hnone : r[2]? = none := List.getElem?_eq_none (by omega)
      simp [hhead, hnone]
    · simp [htwo]
      omega
    · simp [hhead, htwo]
      omega
    · simp [hhead]
      omega
  | false =>
    rw [sep_false, List.nil_append, dateLength_plain hyear hweek]
    simp only [WrittenDate.EndsBy, WrittenDate.width, WrittenDate.StopsBefore, sep_false,
      List.length_nil]
    split_ifs <;> rw [Option.some.injEq] <;> omega

theorem dateLength_weekDay {day : Nat} (hw : (WrittenDate.weekly year week (some day)).Fits) :
    dateLength ((WrittenDate.weekly year week (some day)).text hyphens ++ r) = some n ∧
        (WrittenDate.weekly year week (some day)).EndsBy hyphens n ↔
      n = (WrittenDate.weekly year week (some day)).width hyphens ∧
        (WrittenDate.weekly year week (some day)).StopsBefore r hyphens := by
  obtain ⟨hyear, hweek, hday⟩ := hw
  have hone := length_decimal (by decide) (hday day rfl)
  simp only [WrittenDate.text, List.append_assoc, List.cons_append]
  cases hyphens with
  | true =>
    have hnine : ¬8 + ('-' :: (Text.decimal 1 day ++ r)).length = 9 := by
      rw [List.length_cons, List.length_append]
      omega
    have htwo : ('-' :: (Text.decimal 1 day ++ r))[2]? = r.head? :=
      (getElem?_decimal (by decide) (hday day rfl) 0).trans List.head?_eq_getElem?.symm
    rw [sep_true, List.singleton_append, List.singleton_append,
      dateLength_hyphens hyear hweek, List.head?_cons, if_pos rfl, if_neg hnine, htwo]
    simp only [WrittenDate.EndsBy, WrittenDate.width, WrittenDate.StopsBefore, sep_true,
      List.length_singleton]
    split_ifs with hdigit <;> simp [hdigit] <;> omega
  | false =>
    have hleading : leadingDigits (Text.decimal 1 day ++ r) = 1 + leadingDigits r := by
      rw [leadingDigits, List.takeWhile_append_of_pos fun c hc => isDigit_of_mem_padded hc,
        List.length_append, hone, leadingDigits]
    rw [sep_false, List.nil_append, List.nil_append, dateLength_plain hyear hweek, hleading]
    simp only [WrittenDate.EndsBy, WrittenDate.width, WrittenDate.StopsBefore, sep_false,
      List.length_nil]
    split_ifs <;> rw [Option.some.injEq] <;> omega

theorem dateLength_text {w : WrittenDate} (hw : w.Fits) :
    dateLength (w.text hyphens ++ r) = some n ∧ w.EndsBy hyphens n ↔
      n = w.width hyphens ∧ w.StopsBefore r hyphens := by
  cases w with
  | monthly year month day =>
    rw [dateLength_monthly hw, Option.some.injEq, eq_comm]
    rfl
  | weekly year week day =>
    cases day with
    | none => exact dateLength_week hw
    | some day => exact dateLength_weekDay hw

end Length

/-- A text of one date with a time after any one character, or of a date alone, which stands for its
midnight. -/
def DateTimeText (s : List Char) (t : DateTime) : Prop :=
  ∃ hyphens, ∃ w : WrittenDate, ∃ r, s = w.text hyphens ++ r ∧ w.Fits ∧ w.StopsBefore r hyphens ∧
    w.Names t.date ∧ t.date.IsDay ∧
    (r = [] ∧ t.time = ⟨0, 0, 0, 0, none⟩ ∨
      ∃ c rest, r = charOctets c ++ rest ∧ TimeText rest t.time)

section DateTime

variable {hyphens : Bool} {w : WrittenDate}

theorem endsBy_width : w.EndsBy hyphens (w.width hyphens) := by
  rcases w with _ | ⟨_, _, _ | _⟩ <;> cases hyphens <;> simp [WrittenDate.EndsBy, WrittenDate.width]

theorem seven_le_width : 7 ≤ w.width hyphens := by
  rcases w with _ | ⟨_, _, _ | _⟩ <;> cases hyphens <;> simp [WrittenDate.width]

def readAfter (n : Nat) (cs : List Char) : Option (Clock × Option Int) :=
  if n < cs.length then readIsoTime (cs.drop (n + separatorLength ((cs[n]?).getD nul)))
  else some (⟨0, 0, 0, 0, true⟩, none)

theorem readAfter_text {clock : Clock} {offset : Option Int} (hw : w.Fits) (t : List Char) :
    readAfter (w.width hyphens) (w.text hyphens ++ octets t) = some (clock, offset) ↔
      octets t = [] ∧ clock = ⟨0, 0, 0, 0, true⟩ ∧ offset = none ∨
        ∃ c rest, octets t = charOctets c ++ rest ∧ IsoTimeText rest clock offset := by
  have hlength : (w.text hyphens).length = w.width hyphens := length_text hw
  rw [← exists_separator_iff]
  generalize octets t = r
  cases r with
  | nil =>
    rw [readAfter, if_neg (by rw [List.append_nil]; omega)]
    simp [eq_comm]
  | cons c r =>
    have hat : (w.text hyphens ++ c :: r)[w.width hyphens]? = some c := by
      rw [← hlength, List.getElem?_append_right le_rfl, Nat.sub_self, List.getElem?_cons_zero]
    rw [readAfter, if_pos (by rw [List.length_append, List.length_cons]; omega), hat,
      Option.getD_some, ← List.drop_drop, List.drop_left' hlength, readIsoTime_eq_some]
    simp

theorem isAscii_text : ∀ c ∈ w.text hyphens, Text.isAscii c = true := by
  have hdecimal (n v : Nat) : ∀ c ∈ Text.decimal n v, Text.isAscii c = true :=
    fun c hc => isAscii_of_isDigit (isDigit_of_mem_padded hc)
  have hsep : ∀ c ∈ sep '-' hyphens, Text.isAscii c = true := by
    cases hyphens with
    | true => exact List.forall_mem_singleton.2 rfl
    | false => exact nofun
  rcases w with _ | ⟨_, _, _ | _⟩ <;>
    simp only [WrittenDate.text, List.forall_mem_append, List.forall_mem_cons]
  · exact ⟨hdecimal _ _, hsep, hdecimal _ _, hsep, hdecimal _ _⟩
  · exact ⟨hdecimal _ _, hsep, rfl, hdecimal _ _⟩
  · exact ⟨hdecimal _ _, hsep, rfl, hdecimal _ _, hsep, hdecimal _ _⟩

theorem checks_eq_ok {date : Date} {clock : Clock} {offset : Option Int} {t : DateTime} :
    (clock.toTime offset >>= fun time => date.check >>= fun date => time.check >>= fun time =>
      .ok ⟨date, time⟩) = Except.ok t ↔
      t = ⟨date, clock.at offset⟩ ∧ date.IsDay ∧ (clock.at offset).IsTime := by
  simp only [bind_eq_ok, toTime_eq_ok, date_check_eq_ok, time_check_eq_ok]
  constructor
  · rintro ⟨_, ⟨hoffset, rfl⟩, _, ⟨hday, rfl⟩, _, ⟨hparts, rfl⟩, h⟩
    exact ⟨(Except.ok.inj h).symm, hday, isTime_at.2 ⟨hoffset, hparts⟩⟩
  · rintro ⟨rfl, hday, ht⟩
    obtain ⟨hoffset, hparts⟩ := isTime_at.1 ht
    exact ⟨_, ⟨hoffset, rfl⟩, _, ⟨hday, rfl⟩, _, ⟨hparts, rfl⟩, rfl⟩

/-- A leaf for dates with a time reads a text exactly if it is a text of one. -/
theorem dateTime_ofIso_eq_ok {s : String} {t : DateTime} :
    DateTime.ofIso s = .ok t ↔ DateTimeText (octetChars s) t := by
  simp only [DateTime.ofIso]
  generalize hcs : octetChars s = cs
  constructor
  · intro h
    split_ifs at h with hlength
    split at h
    next => cases h
    next n hn =>
      split at h
      next => cases h
      next date hdate =>
        rw [← readAfter] at h
        split at h
        next => cases h
        next clock offset hafter =>
          obtain ⟨rfl, hday, ht⟩ := checks_eq_ok.1 h
          obtain ⟨hyphens, w, r, rfl, hw, hends, hwritten⟩ := readIsoDate_eq_some.1 hdate
          obtain ⟨rfl, hstops⟩ := (dateLength_text hw).1 ⟨hn, hends⟩
          obtain ⟨rest, rfl⟩ := exists_octets_of_append hcs isAscii_text
          refine ⟨hyphens, w, _, rfl, hw, hstops, (date?_eq_some hday).1 hwritten, hday, ?_⟩
          obtain ⟨hr, rfl, rfl⟩ | ⟨c, time, hr, htext⟩ := (readAfter_text hw rest).1 hafter
          · exact .inl ⟨hr, rfl⟩
          · exact .inr ⟨c, time, hr, clock, offset, htext, rfl, ht⟩
  · rintro ⟨hyphens, w, r, rfl, hw, hstops, hdate, hday, hr⟩
    obtain ⟨rest, rfl⟩ := exists_octets_of_append hcs isAscii_text
    have hlength : ¬(w.text hyphens ++ octets rest).length < 7 := by
      have hseven : 7 ≤ w.width hyphens := seven_le_width
      rw [List.length_append, length_text hw]
      omega
    obtain ⟨clock, offset, hafter, htime, ht⟩ : ∃ clock offset,
        readAfter (w.width hyphens) (w.text hyphens ++ octets rest) = some (clock, offset) ∧
          t.time = clock.at offset ∧ (clock.at offset).IsTime := by
      obtain ⟨hnil, htime⟩ | ⟨c, time, hr, clock, offset, htext, htime, ht⟩ := hr
      · refine ⟨_, _, (readAfter_text hw rest).2 (.inl ⟨hnil, rfl, rfl⟩), htime, ?_⟩
        exact isTime_at.2 ⟨fun o ho => absurd ho (Option.not_mem_none o), by decide⟩
      · exact ⟨clock, offset, (readAfter_text hw rest).2 (.inr ⟨c, time, hr, htext⟩), htime,
          htime ▸ ht⟩
    have hread : readIsoDate (w.width hyphens) (w.text hyphens ++ octets rest) = some t.date :=
      readIsoDate_eq_some.2
        ⟨hyphens, w, _, rfl, hw, endsBy_width, (date?_eq_some hday).2 hdate⟩
    rw [if_neg hlength, ((dateLength_text hw).2 ⟨rfl, hstops⟩).1]
    simp only [hread]
    rw [← readAfter, hafter]
    exact checks_eq_ok.2 ⟨by rw [← htime], hday, ht⟩

end DateTime

end WebForm
