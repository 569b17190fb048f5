import Mathlib
import WebForm.Proofs.Calendar.Dates
import WebForm.Proofs.Run.Basic

/-!
# Times as they are written

A time is written from its hour on, with colons between all of its parts or between none of them.
After any part there may be a fraction or one more octet, and digits beyond a second are a fraction,
too. The relations say what is read, octet by octet; a time that ends before a distance from
universal time need not be complete.
-/
namespace WebForm

/-- The digits of a fraction, and what stands after them: nothing, or, from the sixth digit on, what
is not looked at. -/
structure IsFraction (ds more : List Char) : Prop where
  isDigit : ∀ c ∈ ds, c.isDigit = true
  ne_nil : ds ≠ []
  more_eq_nil : more = [] ∨ 6 ≤ ds.length ∧ ∀ c ∈ more.head?, c.isDigit = false

/-- Further digits are cut off. -/
def microsOf (ds : List Char) : Nat := Nat.ofDigitChars 10 (ds.take 6) 0 * 10 ^ (6 - ds.length)

/-- What follows a part of a clock, if up to `k` parts may come: these parts, the microseconds of a
fraction, and whether nothing but NUL is left, with `stop` after the text. -/
inductive ClockRest (stop : Char) (colons : Bool) : Nat → List Char → List Nat → Nat → Bool → Prop
  | nothing {k : Nat} : ClockRest stop colons k [] [] 0 (stop = nul)
  | octet {k : Nat} (c : Char) : ClockRest stop colons k [c] [] 0 (c = nul)
  | fraction {k : Nat} {mark : Char} {ds more : List Char} (hmark : mark = '.' ∨ mark = ',')
      (hds : IsFraction ds more) :
      ClockRest stop colons k (mark :: (ds ++ more)) [] (microsOf ds) (more.headD stop = nul)
  | lastFraction {ds more : List Char} (hds : IsFraction ds more)
      (hlength : 2 ≤ (sep ':' colons ++ (ds ++ more)).length) :
      ClockRest stop colons 0 (sep ':' colons ++ (ds ++ more)) [] (microsOf ds)
        (more.headD stop = nul)
  | part {k v microsecond : Nat} {s : List Char} {vs : List Nat} {complete : Bool}
      (hv : v < 10 ^ 2) (hs : ClockRest stop colons k s vs microsecond complete) :
      ClockRest stop colons (k + 1) (sep ':' colons ++ (Text.decimal 2 v ++ s)) (v :: vs)
        microsecond complete

def ClockText (stop : Char) (s : List Char) (clock : Clock) : Prop :=
  ∃ colons hour r parts microsecond complete, hour < 10 ^ 2 ∧ s = Text.decimal 2 hour ++ r ∧
    ClockRest stop colons 2 r parts microsecond complete ∧
    clock = .ofParts (hour :: parts) microsecond complete

section Fraction

variable {stop c : Char} {parts : List Nat} {s ds more : List Char} {clock : Clock}

theorem span_append {p : Char → Bool} (hds : ∀ c ∈ ds, p c = true)
    (hmore : ∀ c ∈ more.head?, p c = false) :
    (ds ++ more).takeWhile p = ds ∧ (ds ++ more).dropWhile p = more := by
  rw [List.takeWhile_append_of_pos hds, List.dropWhile_append_of_pos hds]
  cases more with
  | nil => exact ⟨List.append_nil ds, rfl⟩
  | cons c more =>
    have hc : ¬p c = true := by simpa using hmore c rfl
    rw [List.takeWhile_cons_of_neg hc, List.dropWhile_cons_of_neg hc]
    exact ⟨List.append_nil ds, rfl⟩

theorem readFraction_text (h : IsFraction ds more) :
    readFraction stop parts (ds ++ more) =
      some (.ofParts parts (microsOf ds) (more.headD stop = nul)) := by
  obtain ⟨hds, hne, hmore⟩ := h
  have hhead : ∀ c ∈ more.head?, c.isDigit = false := by
    rcases hmore with rfl | ⟨-, h⟩
    · exact nofun
    · exact h
  have hlength : min (ds ++ more).length 6 = min ds.length 6 := by
    rw [List.length_append]
    rcases hmore with rfl | ⟨h, -⟩
    · rw [List.length_nil, Nat.add_zero]
    · omega
  have htake : ds.take (min ds.length 6) = ds.take 6 := by
    rw [List.take_eq_take_iff]
    omega
  have hread : takeNumber (min ds.length 6) (ds ++ more) =
      some (Nat.ofDigitChars 10 (ds.take 6) 0, ds.drop (min ds.length 6) ++ more) := by
    rw [← htake, ← takeNumber_digits (List.length_take_of_le (min_le_left _ _))
      fun c hc => hds c (List.mem_of_mem_take hc), ← List.append_assoc, List.take_append_drop]
  have hrest : (ds.drop (min ds.length 6) ++ more).dropWhile Char.isDigit = more :=
    (span_append (fun c hc => hds c (List.mem_of_mem_drop hc)) hhead).2
  have hexponent : 6 - min ds.length 6 = 6 - ds.length := by omega
  simp only [readFraction, Option.bind_eq_bind]
  rw [hlength, hread, Option.bind_some, hrest, hexponent]
  rfl

theorem readFraction_eq_some (hs : s ≠ []) :
    readFraction stop parts s = some clock ↔
      ∃ ds more, s = ds ++ more ∧ IsFraction ds more ∧
        clock = .ofParts parts (microsOf ds) (more.headD stop = nul) := by
  constructor
  · intro h
    obtain ⟨⟨v, r⟩, hread, -⟩ := Option.bind_eq_some_iff.1 h
    obtain ⟨ds, rfl, hlength, hds, -⟩ := digits_of_takeNumber hread
    have hfraction : IsFraction (ds ++ r.takeWhile Char.isDigit) (r.dropWhile Char.isDigit) := by
      refine ⟨fun c hc => ?_, fun hnil => ?_, ?_⟩
      · rcases List.mem_append.1 hc with hc | hc
        · exact hds c hc
        · exact List.mem_takeWhile_imp hc
      · obtain ⟨rfl, -⟩ := List.append_eq_nil_iff.1 hnil
        have hpositive := List.length_pos_iff.2 hs
        rw [List.length_nil] at hlength
        omega
      · by_cases hr : r = []
        · exact .inl (by rw [hr, List.dropWhile_nil])
        · have hpositive := List.length_pos_iff.2 hr
          rw [List.length_append] at hlength ⊢
          refine .inr ⟨by omega, fun c hc => ?_⟩
          have hhead := List.head?_dropWhile_not Char.isDigit r
          rwa [Option.mem_def.1 hc] at hhead
    refine ⟨_, _, ?_, hfraction, ?_⟩
    · rw [List.append_assoc, List.takeWhile_append_dropWhile]
    · rw [← List.takeWhile_append_dropWhile (p := Char.isDigit) (l := r), ← List.append_assoc,
        readFraction_text hfraction] at h
      exact (Option.some.inj h).symm
  · rintro ⟨ds, more, rfl, h, rfl⟩
    exact readFraction_text h

end Fraction

section Parts

variable {stop : Char} {k v microsecond : Nat} {colons complete : Bool} {parts vs : List Nat}
  {s r : List Char} {clock : Clock}

def readRest (stop : Char) (k : Nat) (colons : Bool) (parts : List Nat) (r : List Char) :
    Option Clock :=
  if r.length ≤ 1 then some (.ofParts parts 0 (r.headD stop = nul))
  else if colons && r.headD stop = ':' then readParts stop k (some colons) parts r.tail
  else if r.headD stop = '.' || r.headD stop = ',' then readFraction stop parts r.tail
  else if !colons then readParts stop k (some colons) parts r
  else none

theorem readParts_succ (colons : Option Bool) :
    readParts stop (k + 1) colons parts s = (takeNumber 2 s).bind fun (v, r) =>
      readRest stop k (colons.getD (r.headD stop = ':')) (parts ++ [v]) r :=
  rfl

theorem IsFraction.exists_cons {ds more : List Char} (h : IsFraction ds more) :
    ∃ c cs, ds ++ more = c :: cs ∧ c.isDigit = true := by
  obtain ⟨c, ds, rfl⟩ := List.exists_cons_of_ne_nil h.ne_nil
  exact ⟨c, ds ++ more, rfl, h.isDigit c List.mem_cons_self⟩

theorem readRest_sep {c : Char} (hc : c.isDigit = true)
    (hlength : 2 ≤ (sep ':' colons ++ c :: r).length) :
    readRest stop k colons parts (sep ':' colons ++ c :: r) =
      readParts stop k (some colons) parts (c :: r) := by
  have hdot : c ≠ '.' := ne_of_isDigit hc rfl
  have hcomma : c ≠ ',' := ne_of_isDigit hc rfl
  rw [readRest, if_neg (by omega)]
  cases colons with
  | true => rfl
  | false => simp [hdot, hcomma]

theorem readRest_text (h : ClockRest stop colons k r vs microsecond complete) :
    readRest stop k colons parts r = some (.ofParts (parts ++ vs) microsecond complete) := by
  induction h generalizing parts with
  | nothing => rw [List.append_nil]; rfl
  | octet c => rw [List.append_nil]; rfl
  | @fraction k mark ds more hmark hds =>
    obtain ⟨c, cs, hcons, -⟩ := hds.exists_cons
    have hcolon : mark ≠ ':' := by rcases hmark with rfl | rfl <;> decide
    have hlength : ¬(mark :: (ds ++ more)).length ≤ 1 := by simp [hcons]
    rw [readRest, if_neg hlength, if_neg (by simp [hcolon]), if_pos (by simpa using hmark),
      List.append_nil]
    exact readFraction_text hds
  | @lastFraction ds more hds hlength =>
    obtain ⟨c, cs, hcons, hc⟩ := hds.exists_cons
    rw [hcons] at hlength ⊢
    rw [readRest_sep hc hlength, ← hcons, List.append_nil]
    exact readFraction_text hds
  | @part k v microsecond r vs complete hv hs ih =>
    obtain ⟨c, cs, hcons, hc⟩ := exists_cons_of_padded (n := 2) (v := v) (by decide)
    have hlength := length_decimal (by decide) hv
    rw [hcons] at hlength
    have hlength' : 2 ≤ (sep ':' colons ++ c :: (cs ++ r)).length := by
      rw [List.length_append, ← List.cons_append, List.length_append]
      omega
    rw [hcons, List.cons_append, readRest_sep hc hlength', ← List.cons_append, ← hcons,
      readParts_succ, takeNumber_decimal (by decide) hv, Option.bind_some]
    change readRest stop k colons (parts ++ [v]) r = _
    rw [ih, List.append_assoc, List.singleton_append]

theorem rest_of_next
    (hnext : ∀ t, 2 ≤ (sep ':' colons ++ t).length →
      readParts stop k (some colons) parts t = some clock →
      ∃ vs microsecond complete,
        ClockRest stop colons k (sep ':' colons ++ t) vs microsecond complete)
    (h : readRest stop k colons parts r = some clock) :
    ∃ vs microsecond complete, ClockRest stop colons k r vs microsecond complete := by
  match r with
  | [] => exact ⟨_, _, _, .nothing⟩
  | [c] => exact ⟨_, _, _, .octet c⟩
  | c :: d :: r =>
    rw [readRest, if_neg (by simp), List.headD_cons, List.tail_cons] at h
    split_ifs at h with hcolon hmark hplain
    · rw [Bool.and_eq_true, decide_eq_true_eq] at hcolon
      obtain ⟨rfl, rfl⟩ := hcolon
      exact hnext (d :: r) (by simp [sep]) h
    · obtain ⟨ds, more, hr, hds, -⟩ := (readFraction_eq_some (by simp)).1 h
      rw [hr]
      exact ⟨_, _, _, .fraction (by simpa using hmark) hds⟩
    · obtain rfl : colons = false := by simpa using hplain
      exact hnext (c :: d :: r) (by simp [sep]) h

theorem rest_of_readRest (h : readRest stop k colons parts r = some clock) :
    ∃ vs microsecond complete, ClockRest stop colons k r vs microsecond complete := by
  -- on the parts that may still come; the digits after the last of them are a fraction
  induction k generalizing parts r with
  | zero =>
    refine rest_of_next (fun t hlength h => ?_) h
    have ht : t ≠ [] := by
      rintro rfl
      cases colons <;> simp [sep] at hlength
    obtain ⟨ds, more, rfl, hds, -⟩ := (readFraction_eq_some ht).1 h
    exact ⟨_, _, _, .lastFraction hds hlength⟩
  | succ k ih =>
    refine rest_of_next (fun t _ h => ?_) h
    rw [readParts_succ] at h
    obtain ⟨v, r, hv, rfl, hread⟩ := (takeNumber_bind (by decide)).1 h
    obtain ⟨vs, microsecond, complete, hrest⟩ := ih hread
    exact ⟨_, _, _, .part hv hrest⟩

theorem readRest_eq_some :
    readRest stop k colons parts r = some clock ↔
      ∃ vs microsecond complete, ClockRest stop colons k r vs microsecond complete ∧
        clock = .ofParts (parts ++ vs) microsecond complete := by
  constructor
  · intro h
    obtain ⟨vs, microsecond, complete, hrest⟩ := rest_of_readRest h
    rw [readRest_text hrest] at h
    exact ⟨vs, microsecond, complete, hrest, (Option.some.inj h).symm⟩
  · rintro ⟨vs, microsecond, complete, hrest, rfl⟩
    exact readRest_text hrest

theorem ClockRest.colons_eq (h : ClockRest stop colons (k + 1) r vs microsecond complete) :
    ClockRest stop (r.headD stop = ':') (k + 1) r vs microsecond complete := by
  cases h with
  | nothing => exact .nothing
  | octet c => exact .octet c
  | fraction hmark hds => exact .fraction hmark hds
  | @part _ v _ s vs _ hv hs =>
    have hcolons :
        decide ((sep ':' colons ++ (Text.decimal 2 v ++ s)).headD stop = ':') = colons := by
      cases colons with
      | true => rfl
      | false =>
        obtain ⟨c, cs, hcons, hc⟩ := exists_cons_of_padded (n := 2) (v := v) (by decide)
        rw [hcons]
        exact decide_eq_false (ne_of_isDigit hc rfl)
    rw [hcolons]
    exact .part hv hs

theorem readClock_eq_some : readClock stop s = some clock ↔ ClockText stop s clock := by
  rw [readClock, readParts_succ, takeNumber_bind (by decide)]
  constructor
  · rintro ⟨hour, r, hhour, rfl, hread⟩
    obtain ⟨parts, microsecond, complete, hrest, rfl⟩ := readRest_eq_some.1 hread
    exact ⟨_, hour, r, parts, microsecond, complete, hhour, rfl, hrest, rfl⟩
  · rintro ⟨colons, hour, r, parts, microsecond, complete, hhour, rfl, hrest, rfl⟩
    exact ⟨hour, r, hhour, rfl, readRest_eq_some.2 ⟨_, _, _, hrest.colons_eq, rfl⟩⟩

end Parts

section Zone

/-- The distance that a clock stands for; a fraction counts only beyond a second. -/
def Clock.distance (c : Clock) : Int :=
  let seconds : Int := ((c.hour * 60 + c.minute) * 60 + c.second : Nat)
  if seconds = 0 then 0 else seconds * 1000000 + c.microsecond

/-- A distance from universal time as it is written after a time. -/
inductive ZoneText : List Char → Option Int → Prop
  | none : ZoneText [] none
  | universal {r : List Char} (hr : r.headD nul = nul) : ZoneText ('Z' :: r) (some 0)
  | east {r : List Char} {c : Clock} (hr : ClockText nul r c) (hc : c.complete = true) :
      ZoneText ('+' :: r) (some c.distance)
  | west {r : List Char} {c : Clock} (hr : ClockText nul r c) (hc : c.complete = true) :
      ZoneText ('-' :: r) (some (-c.distance))

def isZoneMark (c : Char) : Bool := c = '+' || c = '-' || c = 'Z'

/-- A clock and its zone. The zone begins at the first of its marks; a clock without a zone is
complete. -/
def IsoTimeText (s : List Char) (clock : Clock) (offset : Option Int) : Prop :=
  ∃ cs zone, s = cs ++ zone ∧ (∀ c ∈ cs, isZoneMark c = false) ∧
    ClockText (zone.headD nul) cs clock ∧ ZoneText zone offset ∧
    (zone = [] → clock.complete = true)

variable {s cs zone : List Char} {clock : Clock} {offset : Option Int}

theorem ZoneText.isZoneMark_of_mem_head {c : Char} (h : ZoneText zone offset)
    (hc : c ∈ zone.head?) : isZoneMark c = true := by
  cases h with
  | none => cases hc
  | universal | east | west => obtain rfl := Option.some.inj hc; rfl

def readZone (clock : Clock) : List Char → Option (Option Int)
  | [] => if clock.complete then some none else none
  | 'Z' :: r => if r.headD nul = nul then some (some 0) else none
  | mark :: r => (readClock nul r).bind fun away =>
    if away.complete then some (some (if mark = '-' then -away.distance else away.distance))
    else none

theorem readZone_sign {mark : Char} {r : List Char} (hmark : mark ≠ 'Z') :
    readZone clock (mark :: r) = (readClock nul r).bind fun away =>
      if away.complete then some (some (if mark = '-' then -away.distance else away.distance))
      else none := by
  unfold readZone
  split
  next h => cases h
  next h => cases h; exact absurd rfl hmark
  next h => cases h; rfl

theorem readIsoTime_append (hcs : ∀ c ∈ cs, isZoneMark c = false)
    (hzone : ∀ c ∈ zone.head?, isZoneMark c = true) :
    readIsoTime (cs ++ zone) = (readClock (zone.headD nul) cs).bind fun clock =>
      (readZone clock zone).map fun offset => (clock, offset) := by
  obtain ⟨htake, hdrop⟩ : (cs ++ zone).takeWhile (!isZoneMark ·) = cs ∧
      (cs ++ zone).dropWhile (!isZoneMark ·) = zone :=
    span_append (by simpa using hcs) (by simpa using hzone)
  unfold isZoneMark at htake hdrop
  simp only [readIsoTime, Option.bind_eq_bind]
  rw [htake, hdrop]
  congr 1
  funext clock
  match zone with
  | [] => cases hcomplete : clock.complete <;> simp [readZone, hcomplete]
  | mark :: r =>
    by_cases hZ : mark = 'Z'
    · subst hZ
      simp only [readZone]
      split_ifs <;> rfl
    · simp only [readZone_sign hZ]
      cases readClock nul r with
      | none => rfl
      | some away => cases hcomplete : away.complete <;> simp [hcomplete, Clock.distance]

theorem readZone_eq_some (hzone : ∀ c ∈ zone.head?, isZoneMark c = true) :
    readZone clock zone = some offset ↔
      ZoneText zone offset ∧ (zone = [] → clock.complete = true) := by
  constructor
  · intro h
    match zone with
    | [] =>
      simp only [readZone] at h
      split_ifs at h with hcomplete
      obtain rfl := Option.some.inj h
      exact ⟨.none, fun _ => hcomplete⟩
    | mark :: r =>
      refine ⟨?_, nofun⟩
      by_cases hZ : mark = 'Z'
      · subst hZ
        simp only [readZone] at h
        split_ifs at h with hr
        obtain rfl := Option.some.inj h
        exact .universal hr
      · rw [readZone_sign hZ] at h
        obtain ⟨away, haway, h⟩ := Option.bind_eq_some_iff.1 h
        have haway := readClock_eq_some.1 haway
        split_ifs at h with hcomplete hminus <;> obtain rfl := Option.some.inj h
        · subst hminus
          exact .west haway hcomplete
        · obtain rfl : mark = '+' := by simpa [isZoneMark, hZ, hminus] using hzone mark rfl
          exact .east haway hcomplete
  · rintro ⟨h, hcomplete⟩
    cases h with
    | none => rw [readZone, if_pos (hcomplete rfl)]
    | universal hr => rw [readZone, if_pos hr]
    | east hr hc =>
      rw [readZone_sign (by decide), readClock_eq_some.2 hr, Option.bind_some, if_pos hc]
      rfl
    | west hr hc =>
      rw [readZone_sign (by decide), readClock_eq_some.2 hr, Option.bind_some, if_pos hc]
      rfl

/-- What is read as a time is exactly what is written as one. -/
theorem readIsoTime_eq_some :
    readIsoTime s = some (clock, offset) ↔ IsoTimeText s clock offset := by
  constructor
  · intro h
    obtain ⟨cs, zone, rfl, hcs, hzone⟩ : ∃ cs zone, s = cs ++ zone ∧
        (∀ c ∈ cs, isZoneMark c = false) ∧ ∀ c ∈ zone.head?, isZoneMark c = true := by
      refine ⟨s.takeWhile (!isZoneMark ·), s.dropWhile (!isZoneMark ·),
        List.takeWhile_append_dropWhile.symm, fun c hc => ?_, fun c hc => ?_⟩
      · simpa using List.mem_takeWhile_imp hc
      · have hhead := List.head?_dropWhile_not (!isZoneMark ·) s
        rw [Option.mem_def.1 hc] at hhead
        simpa using hhead
    rw [readIsoTime_append hcs hzone] at h
    obtain ⟨clock', hclock, h⟩ := Option.bind_eq_some_iff.1 h
    obtain ⟨offset', hoffset, h⟩ := Option.map_eq_some_iff.1 h
    obtain ⟨rfl, rfl⟩ := Prod.mk.inj h
    obtain ⟨hzone, hcomplete⟩ := (readZone_eq_some hzone).1 hoffset
    exact ⟨cs, zone, rfl, hcs, readClock_eq_some.1 hclock, hzone, hcomplete⟩
  · rintro ⟨cs, zone, rfl, hcs, hclock, hzone, hcomplete⟩
    have hmark : ∀ c ∈ zone.head?, isZoneMark c = true := fun c => hzone.isZoneMark_of_mem_head
    rw [readIsoTime_append hcs hmark, readClock_eq_some.2 hclock, Option.bind_some,
      (readZone_eq_some hmark).2 ⟨hzone, hcomplete⟩]
    rfl

end Zone

section Time

/-- A time of day, less than a day away from universal time. -/
structure Time.IsTime (t : Time) : Prop where
  hour_le : t.hour ≤ 23
  minute_le : t.minute ≤ 59
  second_le : t.second ≤ 59
  offset_lt : ∀ o ∈ t.offset, -daySpan < o ∧ o < daySpan

def Clock.at (c : Clock) (offset : Option Int) : Time :=
  ⟨c.hour, c.minute, c.second, c.microsecond, offset⟩

/-- A text of one time of day. -/
def TimeText (s : List Char) (t : Time) : Prop :=
  ∃ clock offset, IsoTimeText s clock offset ∧ t = clock.at offset ∧ t.IsTime

variable {t t' : Time} {c : Clock} {offset : Option Int}

theorem time_check_eq_ok :
    t.check = .ok t' ↔ (t.hour ≤ 23 ∧ t.minute ≤ 59 ∧ t.second ≤ 59) ∧ t' = t := by
  unfold Time.check
  split_ifs with hhour hminute hsecond
  · exact ⟨nofun, fun h => absurd h.1.1 (not_le.2 hhour)⟩
  · exact ⟨nofun, fun h => absurd h.1.2.1 (not_le.2 hminute)⟩
  · exact ⟨nofun, fun h => absurd h.1.2.2 (not_le.2 hsecond)⟩
  · rw [Except.ok.injEq, eq_comm, and_iff_right]
    exact ⟨not_lt.1 hhour, not_lt.1 hminute, not_lt.1 hsecond⟩

theorem toTime_eq_ok :
    c.toTime offset = .ok t ↔ (∀ o ∈ offset, -daySpan < o ∧ o < daySpan) ∧ t = c.at offset := by
  cases offset with
  | none => simp [Clock.toTime, Clock.at, eq_comm]
  | some o =>
    simp only [Clock.toTime]
    split_ifs with ho
    · refine ⟨nofun, fun h => ?_⟩
      have := h.1 o rfl
      omega
    · rw [Except.ok.injEq, eq_comm, and_iff_right]
      · rfl
      · rintro _ ⟨⟩
        omega

theorem isTime_at :
    (c.at offset).IsTime ↔ (∀ o ∈ offset, -daySpan < o ∧ o < daySpan) ∧
      c.hour ≤ 23 ∧ c.minute ≤ 59 ∧ c.second ≤ 59 :=
  ⟨fun h => ⟨h.offset_lt, h.hour_le, h.minute_le, h.second_le⟩,
    fun ⟨ho, hhour, hminute, hsecond⟩ => ⟨hhour, hminute, hsecond, ho⟩⟩

theorem IsoTimeText.head?_ne {s : List Char} {d : Char} (h : IsoTimeText s c offset)
    (hd : d.isDigit = false) : s.head? ≠ some d := by
  obtain ⟨cs, zone, rfl, -, ⟨colons, hour, r, _, _, _, _, rfl, -⟩, -⟩ := h
  rw [List.append_assoc]
  exact head?_decimal (by decide) hd

/-- A time leaf reads a text exactly if it is a text of one time, with or without a letter before
it. -/
theorem time_ofIso_eq_ok {s : String} :
    Time.ofIso s = .ok t ↔
      ∃ r, (octetChars s = r ∨ octetChars s = 'T' :: r) ∧ TimeText r t := by
  simp only [Time.ofIso]
  generalize octetChars s = cs
  constructor
  · intro h
    split at h
    next clock offset hread =>
      obtain ⟨time, htime, hcheck⟩ := bind_eq_ok.1 h
      obtain ⟨hoffset, rfl⟩ := toTime_eq_ok.1 htime
      obtain ⟨hparts, rfl⟩ := time_check_eq_ok.1 hcheck
      refine ⟨_, ?_, clock, offset, readIsoTime_eq_some.1 hread, rfl,
        isTime_at.2 ⟨hoffset, hparts⟩⟩
      split_ifs with hT
      · exact .inr (List.cons_head?_tail hT).symm
      · exact .inl rfl
    next => cases h
  · rintro ⟨r, hr, clock, offset, htext, rfl, ht⟩
    have hread : (if cs.head? = some 'T' then cs.tail else cs) = r := by
      rcases hr with rfl | rfl
      · rw [if_neg (htext.head?_ne rfl)]
      · rfl
    obtain ⟨hoffset, hparts⟩ := isTime_at.1 ht
    rw [hread, readIsoTime_eq_some.2 htext]
    simp only [toTime_eq_ok.2 ⟨hoffset, rfl⟩]
    exact time_check_eq_ok.2 ⟨hparts, rfl⟩

end Time

end WebForm
