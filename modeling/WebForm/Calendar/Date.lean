/-!
# Dates and times of day

Days of the Gregorian calendar from the year 1 to the year 9999, also by their number and by ISO
week, and times of day with an optional distance from universal time.
-/
namespace WebForm

structure Date where
  year : Nat
  month : Nat
  day : Nat
  deriving DecidableEq, Repr

/-- A time of day; `offset` is its distance from universal time in microseconds. -/
structure Time where
  hour : Nat
  minute : Nat
  second : Nat
  microsecond : Nat
  offset : Option Int
  deriving DecidableEq, Repr

structure DateTime where
  date : Date
  time : Time
  deriving DecidableEq, Repr

inductive CalendarFault where
  | format (text : String)
  | year (n : Nat)
  | month
  | day
  | hour
  | minute
  | second
  | offset (microseconds : Int)
  deriving DecidableEq, Repr

def isLeap (year : Nat) : Bool := year % 4 == 0 && (year % 100 != 0 || year % 400 == 0)

def daysInMonth (year month : Nat) : Nat :=
  if month = 2 then (if isLeap year then 29 else 28)
  else if month = 4 || month = 6 || month = 9 || month = 11 then 30
  else 31

def Date.check (d : Date) : Except CalendarFault Date :=
  if d.year < 1 ∨ 9999 < d.year then .error (.year d.year)
  else if d.month < 1 ∨ 12 < d.month then .error .month
  else if d.day < 1 ∨ daysInMonth d.year d.month < d.day then .error .day
  else .ok d

def Time.check (t : Time) : Except CalendarFault Time :=
  if 23 < t.hour then .error .hour
  else if 59 < t.minute then .error .minute
  else if 59 < t.second then .error .second
  else .ok t

/-- The days before the first of January; `year` is at least 1. -/
def daysBeforeYear (year : Nat) : Nat :=
  let y := year - 1
  y * 365 + y / 4 - y / 100 + y / 400

def daysBeforeMonth (year month : Nat) : Nat :=
  (List.range (month - 1)).foldl (fun days m => days + daysInMonth year (m + 1)) 0

/-- The number of a day; the first of January of the year 1 has number 1. -/
def Date.ordinal (d : Date) : Nat :=
  daysBeforeYear d.year + daysBeforeMonth d.year d.month + d.day

/-- The day `n` days into a year, counted from zero. -/
def Date.ofDayOfYear (year n : Nat) : Date :=
  let month := ((List.range 12).findRev? fun m => daysBeforeMonth year (m + 1) ≤ n).getD 0 + 1
  ⟨year, month, n - daysBeforeMonth year month + 1⟩

/-- The Monday of the first ISO week, which is the week with the year's first Thursday. -/
def firstWeekMonday (year : Nat) : Int :=
  let first := daysBeforeYear year + 1
  let weekday := (first + 6) % 7
  (first : Int) - weekday + if 3 < weekday then 7 else 0

/-- Whether a year has 53 ISO weeks: it starts on a Thursday, or on a Wednesday in a leap year. -/
def hasLongIsoYear (year : Nat) : Bool :=
  let weekday := (daysBeforeYear year + 7) % 7
  weekday == 3 || (weekday == 2 && isLeap year)

/-- A day by ISO year, week and day of the week from Monday. -/
def Date.ofIsoWeek (year week day : Nat) : Date :=
  let ordinal := firstWeekMonday year + ((week : Int) - 1) * 7 + day - 1
  let firstOf (y : Nat) : Int := (daysBeforeYear y : Int) + 1
  let y := if ordinal < firstOf year then year - 1
    else if firstOf (year + 1) ≤ ordinal then year + 1 else year
  .ofDayOfYear y (ordinal - firstOf y).toNat

def daySpan : Int := 24 * 60 * 60 * 1000000

def Time.sinceMidnight (t : Time) : Int :=
  (((t.hour * 60 + t.minute) * 60 + t.second) * 1000000 + t.microsecond : Nat)

end WebForm
