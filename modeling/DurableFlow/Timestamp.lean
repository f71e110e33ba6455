/-! # Points in time

A point in time is a second of UTC and a part of that second in nanoseconds. A leap second is the
second billion of nanoseconds of the last second of a minute. Times run from the first day of the
year -262143 to the last day of the year 262142; arithmetic that leaves this range is an error.
-/

namespace DurableFlow

inductive TimeError where
  | sumOutOfRange
  /-- The number of milliseconds is beyond the range of durations. -/
  | durationOutOfRange
  deriving DecidableEq, Repr

def TimeError.message : TimeError → String
  | .sumOutOfRange => "\x60DateTime + TimeDelta\x60 overflowed"
  | .durationOutOfRange => "TimeDelta::milliseconds out of bounds"

structure Date where
  year : Int
  month : Nat
  day : Nat
  deriving DecidableEq, Repr

namespace Date

def isLeapYear (year : Int) : Bool := year % 4 = 0 && (year % 100 ≠ 0 || year % 400 = 0)

def monthLength (year : Int) (month : Nat) : Nat :=
  if month = 2 then if isLeapYear year then 29 else 28
  else if month = 4 ∨ month = 6 ∨ month = 9 ∨ month = 11 then 30
  else 31

/-- Days since the first of January 1970. Years are counted from March, so that the leap day is
the last of its year. -/
def dayNumber (date : Date) : Int :=
  let year := if date.month ≤ 2 then date.year - 1 else date.year
  let month : Int := if date.month ≤ 2 then date.month + 9 else date.month - 3
  let era := year / 400
  let yearOfEra := year % 400
  let dayOfYear := (153 * month + 2) / 5 + date.day - 1
  era * 146097 + yearOfEra * 365 + yearOfEra / 4 - yearOfEra / 100 + dayOfYear - 719468

def ofDayNumber (n : Int) : Date :=
  let shifted := n + 719468
  let era := shifted / 146097
  let dayOfEra := shifted % 146097
  let yearOfEra := (dayOfEra - dayOfEra / 1460 + dayOfEra / 36524 - dayOfEra / 146096) / 365
  let dayOfYear := dayOfEra - (365 * yearOfEra + yearOfEra / 4 - yearOfEra / 100)
  let month := (5 * dayOfYear + 2) / 153
  let day := dayOfYear - (153 * month + 2) / 5 + 1
  let year := era * 400 + yearOfEra
  if month < 10 then ⟨year, (month + 3).toNat, day.toNat⟩
  else ⟨year + 1, (month - 9).toNat, day.toNat⟩

def minYear : Int := -262143

def maxYear : Int := 262142

def isValid (date : Date) : Bool :=
  minYear ≤ date.year && date.year ≤ maxYear && 1 ≤ date.month && date.month ≤ 12 &&
    1 ≤ date.day && date.day ≤ monthLength date.year date.month

end Date

def nanosPerSecond : Nat := 1000000000

def secondsPerDay : Int := 86400

def minSecond : Int := secondsPerDay * -96465292

def maxSecond : Int := secondsPerDay * 95026236 + 86399

/-- A point in time: seconds since the start of 1970 and nanoseconds within the second. -/
structure Timestamp where
  second : Int
  nano : Nat
  second_ge : minSecond ≤ second
  second_le : second ≤ maxSecond
  nano_lt : nano < 2 * nanosPerSecond
  /-- Only the last second of a minute is prolonged by a leap second. -/
  leap : nanosPerSecond ≤ nano → second % 60 = 59
  deriving DecidableEq, Repr

namespace Timestamp

def epoch : Timestamp := ⟨0, 0, by decide, by decide, by decide, by decide⟩

instance : Inhabited Timestamp := ⟨epoch⟩

def of? (second : Int) (nano : Nat) : Option Timestamp :=
  if h : minSecond ≤ second ∧ second ≤ maxSecond ∧ nano < 2 * nanosPerSecond ∧
      (nanosPerSecond ≤ nano → second % 60 = 59) then
    some ⟨second, nano, h.1, h.2.1, h.2.2.1, h.2.2.2⟩
  else none

/-- Whether one time comes before another. -/
protected def lt (a b : Timestamp) : Prop :=
  a.second < b.second ∨ a.second = b.second ∧ a.nano < b.nano

instance : LT Timestamp := ⟨Timestamp.lt⟩

instance (a b : Timestamp) : Decidable (a < b) :=
  inferInstanceAs (Decidable (a.second < b.second ∨ a.second = b.second ∧ a.nano < b.nano))

instance : LE Timestamp := ⟨fun a b => ¬ b < a⟩

instance (a b : Timestamp) : Decidable (a ≤ b) := inferInstanceAs (Decidable (¬ b < a))

/-- Second and nanoseconds of a sum, before its range is looked at. A sum that leaves a leap second
counts it as one second forwards and as none backwards. -/
def shift (t : Timestamp) (millis : Int) : Int × Int :=
  let whole := millis.tdiv 1000
  let part := millis.tmod 1000 * 1000000
  let nano : Int := t.nano
  if nanosPerSecond ≤ t.nano ∧ whole = 0 ∧ nano + part < 2 * nanosPerSecond then
    (t.second, nano + part)
  else
    let (second, nano) :=
      if t.nano < nanosPerSecond then (t.second, nano)
      else if whole < 0 then (t.second + 1, nano - nanosPerSecond)
      else (t.second, nano - nanosPerSecond)
    let second := second + whole
    let nano := nano + part
    if nano < 0 then (second - 1, nano + nanosPerSecond)
    else if nanosPerSecond ≤ nano then (second + 1, nano - nanosPerSecond)
    else (second, nano)

/-- The time a number of milliseconds after another, or before it if the number is negative. -/
def add (t : Timestamp) (millis : Int) : Except TimeError Timestamp :=
  let (second, nano) := t.shift millis
  match of? second nano.toNat with
  | some sum => .ok sum
  | none => .error .sumOutOfRange

end Timestamp

/-- The duration of a number of milliseconds; the least signed 64-bit number is none. -/
def duration (millis : Int) : Except TimeError Int :=
  if millis = -(Nat.pow 2 63) then .error .durationOutOfRange else .ok millis

end DurableFlow
