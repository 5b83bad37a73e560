import Blueprint.Number.Numeral

/-!
# Dates and times

A date is three numbers, and a time of day may follow it, with a fraction of a second and a distance
from universal time. A text of this form that names no day or time is a fault. Times with a distance
from universal time are the same if they are the same instant, all others if they are written with
the same numbers.
-/

namespace Blueprint.Yaml

/-- What can be wrong with a date or time. -/
inductive MomentFault where
  | year | month | day | hour | minute | second
  /-- The distance from universal time is a day or more, in minutes. -/
  | zone (minutes : Int)
  deriving DecidableEq, Repr

/-- The wording of a fault. -/
def MomentFault.message : MomentFault → String
  | .year => "year 0 is out of range"
  | .month => "month must be in 1..12"
  | .day => "day is out of range for month"
  | .hour => "hour must be in 0..23"
  | .minute => "minute must be in 0..59"
  | .second => "second must be in 0..59"
  | .zone minutes =>
    let days := Int.fdiv minutes 1440
    let seconds := Int.fmod minutes 1440 * 60
    let tail := if seconds = 0 then "" else ", seconds=" ++ toString seconds
    "offset must be a timedelta strictly between -timedelta(hours=24) and " ++
      "timedelta(hours=24), not datetime.timedelta(days=" ++ toString days ++ tail ++ ")."

/-- A distance from universal time, in minutes. -/
inductive Zone where
  /-- Universal time itself. -/
  | universal
  /-- A distance. -/
  | distance (minutes : Int)
  deriving DecidableEq, Repr

/-- The distance in minutes. -/
def Zone.minutes : Zone → Int
  | .universal => 0
  | .distance minutes => minutes

/-- A time of day. -/
structure TimeOfDay where
  /-- The hour. -/
  hour : Nat
  /-- The minute. -/
  minute : Nat
  /-- The second. -/
  second : Nat
  /-- The digits of the fraction of the second. -/
  fraction : List Char
  /-- The distance from universal time. -/
  zone : Option Zone
  deriving DecidableEq, Repr

/-- A date, and a time of day or none. -/
structure Moment where
  /-- The year. -/
  year : Nat
  /-- The month. -/
  month : Nat
  /-- The day. -/
  day : Nat
  /-- The time of day. -/
  time : Option TimeOfDay
  deriving DecidableEq, Repr

namespace Moment

/-! ## Reading -/

/-- The number of between the given counts of digits at the start of a text, and what follows. -/
def takeNumber (least most : Nat) (text : List Char) : Option (Nat × List Char) :=
  let digits := (text.take most).takeWhile Char.isDigit
  if least ≤ digits.length then
    some (Number.ofDigits 10 (digits.map fun c => c.toNat - 48), text.drop digits.length)
  else none

/-- What follows a character at the start of a text. -/
def takeChar (c : Char) : List Char → Option (List Char)
  | first :: rest => if first = c then some rest else none
  | [] => none

/-- A distance from universal time that makes up a whole text. -/
def zoneOf? : List Char → Option Zone
  | ['Z'] => some .universal
  | sign :: rest =>
    if sign = '+' || sign = '-' then do
      let (hours, rest) ← takeNumber 1 2 rest
      let minutes ← match rest with
        | [] => pure 0
        | _ => do
          let (minutes, rest) ← takeNumber 2 2 (← takeChar ':' rest)
          guard rest.isEmpty
          pure minutes
      let total : Int := hours * 60 + minutes
      return .distance (if sign = '-' then -total else total)
    else none
  | [] => none

/-- A time of day that makes up a whole text. -/
def timeOf? (text : List Char) : Option TimeOfDay := do
  let (hour, rest) ← takeNumber 1 2 text
  let (minute, rest) ← takeNumber 2 2 (← takeChar ':' rest)
  let (second, rest) ← takeNumber 2 2 (← takeChar ':' rest)
  let (fraction, rest) := match rest with
    | '.' :: more => (more.takeWhile Char.isDigit, more.dropWhile Char.isDigit)
    | more => ([], more)
  let blanks := rest.dropWhile fun c => c == ' ' || c == '\t'
  let zone ← match blanks with
    | [] => if rest.isEmpty then pure none else none
    | text => do pure (some (← zoneOf? text))
  return ⟨hour, minute, second, fraction, zone⟩

/-- What a text of the form of a date or time says. -/
def ofText? (text : List Char) : Option Moment := do
  let (year, rest) ← takeNumber 4 4 text
  let afterYear ← takeChar '-' rest
  let (month, rest) ← takeNumber 1 2 afterYear
  let (day, rest) ← takeNumber 1 2 (← takeChar '-' rest)
  match rest with
  | [] => return ⟨year, month, day, none⟩
  | c :: more =>
    let time ←
      if c = 'T' || c = 't' then timeOf? more
      else if c = ' ' || c = '\t' then
        timeOf? (more.dropWhile fun c => c == ' ' || c == '\t')
      else none
    return ⟨year, month, day, some time⟩

/-! ## Checking -/

/-- Whether a year has a day more. -/
def isLeap (year : Nat) : Bool :=
  year % 4 == 0 && (year % 100 != 0 || year % 400 == 0)

/-- The count of days of a month. -/
def daysIn (year month : Nat) : Nat :=
  match month with
  | 2 => if isLeap year then 29 else 28
  | 4 | 6 | 9 | 11 => 30
  | _ => 31

/-- The first thing that is wrong with a date or time. -/
def fault? (moment : Moment) : Option MomentFault :=
  let zone := (moment.time.bind TimeOfDay.zone).bind fun
    | .distance minutes => if 1440 ≤ minutes.natAbs then some (MomentFault.zone minutes) else none
    | .universal => none
  let date :=
    if moment.year = 0 then some MomentFault.year
    else if moment.month = 0 || 12 < moment.month then some .month
    else if moment.day = 0 || daysIn moment.year moment.month < moment.day then some .day
    else none
  let time := moment.time.bind fun time =>
    if 23 < time.hour then some MomentFault.hour
    else if 59 < time.minute then some .minute
    else if 59 < time.second then some .second
    else none
  zone.or (date.or time)

/-! ## Writing -/

/-- A number with zeros in front up to the given count of digits. -/
def padded (width number : Nat) : String :=
  let digits := Nat.toDigits 10 number
  String.ofList (List.replicate (width - digits.length) '0' ++ digits)

/-- The text of a distance from universal time. -/
def zoneText : Zone → String
  | .universal => "+00:00"
  | .distance minutes =>
    let sign := if minutes < 0 then "-" else "+"
    sign ++ padded 2 (minutes.natAbs / 60) ++ ":" ++ padded 2 (minutes.natAbs % 60)

/-- The text of a time of day: the fraction has six digits, or is left out where it is zero. -/
def timeText (time : TimeOfDay) : String :=
  let fraction := (time.fraction ++ List.replicate 6 '0').take 6
  padded 2 time.hour ++ ":" ++ padded 2 time.minute ++ ":" ++ padded 2 time.second ++
    (if fraction.all (· == '0') then "" else "." ++ String.ofList fraction) ++
    (time.zone.map zoneText).getD ""

/-- The text of a date or time. -/
def text (moment : Moment) : String :=
  padded 4 moment.year ++ "-" ++ padded 2 moment.month ++ "-" ++ padded 2 moment.day ++
    (moment.time.map fun time => " " ++ timeText time).getD ""

/-! ## Comparing -/

/-- The count of days of the months before a month. -/
def daysBefore (year month : Nat) : Nat :=
  (List.range (month - 1)).foldl (fun days before => days + daysIn year (before + 1)) 0

/-- The count of days from the start of the first year on. -/
def dayNumber (moment : Moment) : Nat :=
  let years := moment.year - 1
  years * 365 + years / 4 - years / 100 + years / 400 + daysBefore moment.year moment.month +
    moment.day

/-- The millionths of a second of a time of day; further digits of the fraction do not count. -/
def millionths (time : TimeOfDay) : Nat :=
  let fraction := (time.fraction ++ List.replicate 6 '0').take 6
  (time.hour * 3600 + time.minute * 60 + time.second) * 1000000 +
    Number.ofDigits 10 (fraction.map fun c => c.toNat - 48)

/-- The instant of a time with a distance from universal time, in millionths of a second. -/
def instant? (moment : Moment) : Option Int := do
  let time ← moment.time
  let zone ← time.zone
  return (moment.dayNumber : Int) * 86400000000 + millionths time - zone.minutes * 60000000

/-- Whether two dates or times are the same. -/
def same (first second : Moment) : Bool :=
  match first.instant?, second.instant? with
  | some a, some b => a == b
  | none, none => first.text == second.text
  | _, _ => false

end Moment

end Blueprint.Yaml
