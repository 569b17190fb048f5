import WebForm.Calendar.Date
import WebForm.Text.Digit
import WebForm.Text.Quoted
import WebForm.Text.Utf8

/-!
# ISO 8601 text

Reads dates by month or by week, with or without hyphens, times to the hour, minute, second or a
fraction of it, and distances from universal time. Texts are read as octets, and a NUL octet counts
as the end of a text. What follows a fraction of at least six digits is not looked at if a distance
from universal time comes after it.
-/
namespace WebForm

def nul : Char := '\x00'

def takeNumber (n : Nat) (s : List Char) : Option (Nat × List Char) :=
  let ds := s.take n
  if ds.length = n then
    (ds.mapM Text.asciiDigit?).map fun vs => (vs.foldl (fun a d => 10 * a + d) 0, s.drop n)
  else none

/-- Reads the day of an ISO week. Weeks of the year 0 lie before the first month. -/
def isoWeekDate? (year week day : Nat) : Option Date :=
  if week < 1 ∨ 53 < week ∨ (week = 53 ∧ (year = 0 ∨ !hasLongIsoYear year)) then none
  else if day < 1 ∨ 7 < day then none
  else if year = 0 then some ⟨1, 0, 0⟩
  else some (.ofIsoWeek year week day)

/-- Reads a date at the start of `s`; a week has a day if it ends before the first `n` characters
do. -/
def readIsoDate (n : Nat) (s : List Char) : Option Date := do
  let (year, r) ← takeNumber 4 s
  let hyphens := r.head? == some '-'
  let r := if hyphens then r.tail else r
  if r.head? == some 'W' then
    let (week, r) ← takeNumber 2 r.tail
    if s.length - r.length < n then
      if hyphens && r.head? != some '-' then none
      else
        let (day, _) ← takeNumber 1 (if hyphens then r.tail else r)
        isoWeekDate? year week day
    else isoWeekDate? year week 1
  else
    let (month, r) ← takeNumber 2 r
    if hyphens && r.head? != some '-' then none
    else
      let (day, _) ← takeNumber 2 (if hyphens then r.tail else r)
      some ⟨year, month, day⟩

/-- Hours, minutes, seconds and microseconds, and whether nothing but NUL follows. -/
structure Clock where
  hour : Nat
  minute : Nat
  second : Nat
  microsecond : Nat
  complete : Bool
  deriving DecidableEq, Repr

def Clock.ofParts (parts : List Nat) (microsecond : Nat) (complete : Bool) : Clock :=
  ⟨parts.getD 0 0, parts.getD 1 0, parts.getD 2 0, microsecond, complete⟩

def readFraction (stop : Char) (parts : List Nat) (s : List Char) : Option Clock := do
  let n := min s.length 6
  let (v, r) ← takeNumber n s
  let rest := r.dropWhile Char.isDigit
  some (.ofParts parts (v * Nat.pow 10 (6 - n)) (rest.headD stop = nul))

/-- Reads up to three more two-digit parts. `stop` is the character after `s`; `colons` says whether
the parts are separated, once the first part is read. -/
def readParts (stop : Char) : Nat → Option Bool → List Nat → List Char → Option Clock
  | 0, _, parts, s => readFraction stop parts s
  | k + 1, colons, parts, s => do
    let (v, r) ← takeNumber 2 s
    let parts := parts ++ [v]
    let c := r.headD stop
    let colons := colons.getD (c = ':')
    if r.length ≤ 1 then some (.ofParts parts 0 (c = nul))
    else if colons && c = ':' then readParts stop k (some colons) parts r.tail
    else if c = '.' || c = ',' then readFraction stop parts r.tail
    else if !colons then readParts stop k (some colons) parts r
    else none

def readClock (stop : Char) (s : List Char) : Option Clock := readParts stop 3 none [] s

def readIsoTime (s : List Char) : Option (Clock × Option Int) := do
  let isMark (c : Char) : Bool := c = '+' || c = '-' || c = 'Z'
  let zone := s.dropWhile (!isMark ·)
  let clock ← readClock (zone.headD nul) (s.takeWhile (!isMark ·))
  match zone with
  | [] => if clock.complete then some (clock, none) else none
  | 'Z' :: r => if r.headD nul = nul then some (clock, some 0) else none
  | mark :: r =>
    let away ← readClock nul r
    if !away.complete then none
    else
      let seconds : Int := ((away.hour * 60 + away.minute) * 60 + away.second : Nat)
      let distance := if seconds = 0 then 0 else seconds * 1000000 + away.microsecond
      some (clock, some (if mark = '-' then -distance else distance))

/-- Distances of a day and more are refused. -/
def Clock.toTime (c : Clock) (offset : Option Int) : Except CalendarFault Time :=
  match offset with
  | some o =>
    if o ≤ -daySpan ∨ daySpan ≤ o then .error (.offset o)
    else .ok ⟨c.hour, c.minute, c.second, c.microsecond, some o⟩
  | none => .ok ⟨c.hour, c.minute, c.second, c.microsecond, none⟩

def octetChars (s : String) : List Char := Text.latin1 (Text.encodeString s)

def Date.ofIso (s : String) : Except CalendarFault Date :=
  let cs := octetChars s
  let n := cs.length
  if n = 7 ∨ n = 8 ∨ n = 10 then
    match readIsoDate n cs with
    | some d => d.check
    | none => .error (.format s)
  else .error (.format s)

def Time.ofIso (s : String) : Except CalendarFault Time :=
  let cs := octetChars s
  match readIsoTime (if cs.head? = some 'T' then cs.tail else cs) with
  | some (c, offset) => (c.toTime offset).bind Time.check
  | none => .error (.format s)

/-- Where the date of a date and time ends. Any one character may separate the two, so the form of
the date decides; digits after a week are counted, since the time's digits come in pairs. -/
def dateLength (s : List Char) : Option Nat :=
  let n := s.length
  let isDigitAt (i : Nat) : Bool := (s[i]?).any Char.isDigit
  if n = 7 then some 7
  else if s[4]? = some '-' then
    if s[5]? = some 'W' then
      if s[8]? = some '-' then
        if n = 9 then none
        else if isDigitAt 10 then some 8 else some 10
      else some 8
    else some 10
  else if s[4]? = some 'W' then
    let stop := 7 + ((s.drop 7).takeWhile Char.isDigit).length
    if stop < 9 then some stop else if stop % 2 = 0 then some 7 else some 8
  else some 8

/-- The octets of a separator's UTF-8 encoding, from its first octet. -/
def separatorLength (c : Char) : Nat :=
  let n := c.toNat
  if n < 0x80 then 1 else if n / 16 = 0xE then 3 else if n / 16 = 0xF then 4 else 2

def DateTime.ofIso (s : String) : Except CalendarFault DateTime :=
  let cs := octetChars s
  let fail := Except.error (CalendarFault.format s)
  if cs.length < 7 then fail
  else
    match dateLength cs with
    | none => fail
    | some n =>
      match readIsoDate n cs with
      | none => fail
      | some date =>
        let written :=
          if n < cs.length then
            readIsoTime (cs.drop (n + separatorLength ((cs[n]?).getD nul)))
          else some (⟨0, 0, 0, 0, true⟩, none)
        match written with
        | none => fail
        | some (c, offset) => do
          let time ← c.toTime offset
          let date ← date.check
          let time ← time.check
          .ok ⟨date, time⟩

/-- A span of time as it is shown in messages: whole days, and the seconds and microseconds beyond
them. -/
def displaySpan (microseconds : Int) : String :=
  let part (name : String) (n : Int) : List String := if n = 0 then [] else [s!"{name}={n}"]
  let days := microseconds.fdiv daySpan
  let rest := microseconds.fmod daySpan
  "datetime.timedelta(" ++ Text.commaSeparated
    (part "days" days ++ part "seconds" (rest.fdiv 1000000) ++
      part "microseconds" (rest.fmod 1000000)) ++ ")"

def CalendarFault.message : CalendarFault → String
  | .format s => "Invalid isoformat string: " ++ Text.quoted s
  | .year n => s!"year {n} is out of range"
  | .month => "month must be in 1..12"
  | .day => "day is out of range for month"
  | .hour => "hour must be in 0..23"
  | .minute => "minute must be in 0..59"
  | .second => "second must be in 0..59"
  | .offset o =>
    "offset must be a timedelta strictly between -timedelta(hours=24) and " ++
      "timedelta(hours=24), not " ++ displaySpan o ++ "."

def twoDigits (n : Nat) : String := String.ofList (Text.decimal 2 n)

def Date.toIso (d : Date) : String :=
  String.ofList (Text.decimal 4 d.year) ++ "-" ++ twoDigits d.month ++ "-" ++ twoDigits d.day

def fractionText (microsecond : Nat) : String :=
  if microsecond = 0 then "" else "." ++ String.ofList (Text.decimal 6 microsecond)

def offsetText (o : Int) : String :=
  let n := o.natAbs
  let seconds := n / 1000000
  let fraction := n % 1000000
  (if o < 0 then "-" else "+") ++ twoDigits (seconds / 3600) ++ ":" ++
    twoDigits (seconds / 60 % 60) ++
    (if seconds % 60 = 0 ∧ fraction = 0 then "" else ":" ++ twoDigits (seconds % 60)) ++
    fractionText fraction

def Time.toIso (t : Time) : String :=
  twoDigits t.hour ++ ":" ++ twoDigits t.minute ++ ":" ++ twoDigits t.second ++
    fractionText t.microsecond ++ (t.offset.map offsetText).getD ""

def DateTime.toIso (t : DateTime) : String := t.date.toIso ++ "T" ++ t.time.toIso

end WebForm
