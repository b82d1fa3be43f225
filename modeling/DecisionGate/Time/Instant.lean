import DecisionGate.Time.Duration

/-!
Points in time, counted in microseconds from the beginning of the first year of the calendar, and
their text in the proleptic Gregorian calendar.
-/
namespace DecisionGate

/-- Microseconds since the first of January of the year one. -/
abbrev Instant := Int

namespace Instant

def isLeap (year : Nat) : Bool := year % 4 == 0 && (year % 100 != 0 || year % 400 == 0)

/-- The days of all years before a year. -/
def daysBefore (year : Nat) : Nat :=
  let y := year - 1
  y * 365 + y / 4 - y / 100 + y / 400

/-- The year of a day; `day` counts from zero. No year is longer than 366 days, so that the guess is
at most a few years early, and every step goes to the next year. -/
def yearOf (day : Nat) : Nat :=
  let rec go (year : Nat) : Nat → Nat
    | 0 => year
    | fuel + 1 => if daysBefore (year + 1) ≤ day then go (year + 1) fuel else year
  go (day / 366 + 1) (day / 366 / 365 + 8)

def monthLengths (year : Nat) : List Nat :=
  [31, if isLeap year then 29 else 28, 31, 30, 31, 30, 31, 31, 30, 31, 30, 31]

/-- The month and the day of the month, both from one on. -/
def monthAndDay (month dayOfYear : Nat) : List Nat → Nat × Nat
  | [] => (month, dayOfYear + 1)
  | length :: rest =>
    if dayOfYear < length then (month, dayOfYear + 1)
    else monthAndDay (month + 1) (dayOfYear - length) rest

/-- A number with leading zeros. -/
def padded (width n : Nat) : String :=
  let digits := Nat.toDigits 10 n
  String.ofList (List.replicate (width - digits.length) '0' ++ digits)

def date (day : Nat) : String :=
  let year := yearOf day
  let (month, d) := monthAndDay 1 (day - daysBefore year) (monthLengths year)
  s!"{padded 4 year}-{padded 2 month}-{padded 2 d}"

def microsecondsPerDay : Nat := 86400000000

/-- Microseconds are written only when there are some. -/
def clock (micros : Nat) : String :=
  let seconds := micros / 1000000
  let fraction := micros % 1000000
  let minutes := seconds / 60
  let time := s!"{padded 2 (minutes / 60)}:{padded 2 (minutes % 60)}:{padded 2 (seconds % 60)}"
  if fraction = 0 then time else s!"{time}.{padded 6 fraction}"

/-- The text of a point in time, in universal time. -/
def text (t : Instant) : String :=
  let n := t.toNat
  s!"{date (n / microsecondsPerDay)}T{clock (n % microsecondsPerDay)}+00:00"

/-- The calendar ends with the year 9999. -/
def isInCalendar (t : Instant) : Bool :=
  0 ≤ t && t < daysBefore 10000 * microsecondsPerDay

/-- The beginning of the year 2024. -/
def epoch : Instant := daysBefore 2024 * microsecondsPerDay

def after (t : Instant) (d : Duration) : Except Duration.Problem Instant :=
  if isInCalendar (t + d) then .ok (t + d) else .error .tooLarge

end Instant

end DecisionGate
