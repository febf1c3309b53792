/-!
# Dates and times

Dates of the Gregorian calendar from year 1 on, and times of day with microseconds and an optional
offset from universal time. A date that does not exist is refused with the first reason that applies.
-/

namespace Gleaner

/-- A day. -/
structure Date where
  year : Nat
  month : Nat
  day : Nat
deriving DecidableEq, Repr

/-- A moment of a day. The offset is in minutes, if it is known. -/
structure DateTime where
  date : Date
  hour : Nat
  minute : Nat
  second : Nat
  microsecond : Nat := 0
  offset : Option Int := none
deriving DecidableEq, Repr

/-- Why a date or a time does not exist. -/
inductive CalendarError where
  | year (year : Nat)
  | month
  | day
  | hour
  | minute
  | second
  | offset (minutes : Int)
deriving DecidableEq, Repr

/-- Whether a year has a leap day. -/
def isLeapYear (year : Nat) : Bool :=
  year % 4 == 0 && (year % 100 != 0 || year % 400 == 0)

/-- The number of days of a month. -/
def daysInMonth (year month : Nat) : Nat :=
  if month = 2 then if isLeapYear year then 29 else 28
  else if month = 4 || month = 6 || month = 9 || month = 11 then 30
  else 31

/-- A number with at least so many digits. -/
def padded (width n : Nat) : String :=
  let digits := Nat.toDigits 10 n
  String.ofList (List.replicate (width - digits.length) '0' ++ digits)

/-- The date itself if it exists. -/
def Date.checked (d : Date) : Except CalendarError Date :=
  if d.year = 0 then .error (.year d.year)
  else if d.month = 0 || d.month > 12 then .error .month
  else if d.day = 0 || d.day > daysInMonth d.year d.month then .error .day
  else .ok d

/-- The offset itself if it is less than a day. -/
def checkedOffset (minutes : Int) : Except CalendarError Int :=
  if minutes.natAbs ≥ 1440 then .error (.offset minutes) else .ok minutes

/-- The moment itself if it exists. -/
def DateTime.checked (t : DateTime) : Except CalendarError DateTime := do
  let _ ← t.date.checked
  if t.hour > 23 then .error .hour
  else if t.minute > 59 then .error .minute
  else if t.second > 59 then .error .second
  else .ok t

/-- The date a number of days after the first of January 1970. Years are counted from March in cycles of
four hundred. -/
def Date.ofDays (days : Nat) : Date :=
  let shifted := days + 719468
  let inCycle := shifted % 146097
  let year := (inCycle - inCycle / 1460 + inCycle / 36524 - inCycle / 146096) / 365
  let inYear := inCycle - (365 * year + year / 4 - year / 100)
  let fromMarch := (5 * inYear + 2) / 153
  let month := if fromMarch < 10 then fromMarch + 3 else fromMarch - 9
  { year := year + 400 * (shifted / 146097) + (if month ≤ 2 then 1 else 0)
    month
    day := inYear - (153 * fromMarch + 2) / 5 + 1 }

/-- The moment a number of microseconds after the start of 1970, in universal time. -/
def DateTime.ofMicroseconds (n : Nat) : DateTime :=
  let seconds := n / 1000000
  { date := .ofDays (seconds / 86400)
    hour := seconds / 3600 % 24
    minute := seconds / 60 % 60
    second := seconds % 60
    microsecond := n % 1000000
    offset := some 0 }

/-- A date with dashes. -/
def Date.text (d : Date) : String :=
  padded 4 d.year ++ "-" ++ padded 2 d.month ++ "-" ++ padded 2 d.day

/-- An offset with its sign. -/
def offsetText (minutes : Int) : String :=
  (if minutes < 0 then "-" else "+") ++ padded 2 (minutes.natAbs / 60) ++ ":"
    ++ padded 2 (minutes.natAbs % 60)

/-- A moment with a mark between its date and its time. -/
def DateTime.text (mark : String) (t : DateTime) : String :=
  t.date.text ++ mark ++ padded 2 t.hour ++ ":" ++ padded 2 t.minute ++ ":" ++ padded 2 t.second
    ++ (if t.microsecond = 0 then "" else "." ++ padded 6 t.microsecond)
    ++ (t.offset.map offsetText).getD ""

/-- A date as a call that makes it. -/
def Date.display (d : Date) : String :=
  s!"datetime.date({d.year}, {d.month}, {d.day})"

/-- A span of minutes as a call that makes it, in days and the seconds left over. -/
def spanDisplay (minutes : Int) : String :=
  let days := minutes.fdiv 1440
  let seconds := minutes.fmod 1440 * 60
  let parts :=
    (if days = 0 then [] else [s!"days={days}"]) ++ (if seconds = 0 then [] else [s!"seconds={seconds}"])
  match parts with
  | [] => "datetime.timedelta(0)"
  | [a] => s!"datetime.timedelta({a})"
  | a :: b :: _ => s!"datetime.timedelta({a}, {b})"

/-- A moment as a call that makes it. -/
def DateTime.display (t : DateTime) : String :=
  let time :=
    if t.microsecond ≠ 0 then s!", {t.hour}, {t.minute}, {t.second}, {t.microsecond}"
    else if t.second ≠ 0 then s!", {t.hour}, {t.minute}, {t.second}"
    else s!", {t.hour}, {t.minute}"
  let zone := match t.offset with
    | none => ""
    | some 0 => ", tzinfo=datetime.timezone.utc"
    | some minutes => s!", tzinfo=datetime.timezone({spanDisplay minutes})"
  s!"datetime.datetime({t.date.year}, {t.date.month}, {t.date.day}{time}{zone})"

/-- The wording of a calendar error. -/
def CalendarError.message : CalendarError → String
  | .year y => s!"year {y} is out of range"
  | .month => "month must be in 1..12"
  | .day => "day is out of range for month"
  | .hour => "hour must be in 0..23"
  | .minute => "minute must be in 0..59"
  | .second => "second must be in 0..59"
  | .offset minutes =>
    "offset must be a timedelta strictly between -timedelta(hours=24) and timedelta(hours=24), not "
      ++ spanDisplay minutes ++ "."

end Gleaner
