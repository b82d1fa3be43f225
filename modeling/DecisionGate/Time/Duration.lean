import DecisionGate.Value.Arithmetic

/-!
Spans of time in whole microseconds. A span given as a number of units is exact in its integral
part; the fractions of all units together are rounded once, a half to the even microsecond.
-/
namespace DecisionGate

/-- A number of microseconds. -/
abbrev Duration := Int

namespace Duration

inductive TimeUnit where
  | microseconds
  | milliseconds
  | seconds
  | minutes
  | hours
  | days
  deriving DecidableEq, Repr

namespace TimeUnit

/-- From the shortest to the longest. -/
def all : List TimeUnit := [.microseconds, .milliseconds, .seconds, .minutes, .hours, .days]

def name : TimeUnit → String
  | .microseconds => "microseconds"
  | .milliseconds => "milliseconds"
  | .seconds => "seconds"
  | .minutes => "minutes"
  | .hours => "hours"
  | .days => "days"

def microsecondsIn : TimeUnit → Nat
  | .microseconds => 1
  | .milliseconds => 1000
  | .seconds => 1000000
  | .minutes => 60000000
  | .hours => 3600000000
  | .days => 86400000000

end TimeUnit

/-- Why a number of units is no span. -/
inductive Problem where
  | notNumber
  | notANumber
  | tooLarge
  deriving DecidableEq, Repr

/-- A double's integral part and the rest of it; none when it has none. -/
def split? (x : Float) : Option (Int × Float) :=
  match Double.parts x with
  | .finite negative m e =>
    let s : Int := if negative then -1 else 1
    if 0 ≤ e then some (s * m * twoTo e.toNat, 0.0)
    else
      let whole := m / twoTo (-e).toNat
      let rest := m % twoTo (-e).toNat
      let fraction := (Double.ofRatio? negative rest (twoTo (-e).toNat)).getD 0.0
      some (s * whole, fraction)
  | _ => none

/-- Whole microseconds so far, and the fractions of microseconds besides. -/
structure Tally where
  whole : Int := 0
  fraction : Float := 0.0

def Tally.add (s : Tally) (u : TimeUnit) (v : Value) : Except Problem Tally :=
  match v.number? with
  | none => .error .notNumber
  | some (.int i) => .ok { s with whole := s.whole + i * u.microsecondsIn }
  | some (.float x) =>
    match split? x with
    | none => .error (if Double.isNaN x then .notANumber else .tooLarge)
    | some (i, f) =>
      let whole := s.whole + i * u.microsecondsIn
      match split? (f * Float.ofNat u.microsecondsIn) with
      | none => .error .tooLarge
      | some (j, g) => .ok { whole := whole + j, fraction := s.fraction + g }

/-- The nearest integer, a half to the even one when `odd` is added to it. -/
def Tally.round (s : Tally) : Duration :=
  match Double.parts s.fraction with
  | .finite negative m e =>
    if 0 ≤ e then
      let whole : Int := m * twoTo e.toNat
      s.whole + (if negative then -whole else whole)
    else
      let den := twoTo (-e).toNat
      let q : Int := if negative then -m else m
      let total := s.whole * den + q
      let low := total / den
      let twice := 2 * (total - low * den)
      if twice > den ∨ (twice = den ∧ low % 2 = 1) then low + 1 else low
  | _ => s.whole

/-- No span has more days than this, before or after. -/
def mostDays : Int := 999999999

def check (d : Duration) : Except Problem Duration :=
  let day : Int := TimeUnit.days.microsecondsIn
  if d / day < -mostDays ∨ mostDays < d / day then .error .tooLarge else .ok d

/-- The span of numbers of units, which are added from the shortest unit on. -/
def ofUnits (units : List (TimeUnit × Value)) : Except Problem Duration := do
  let given := TimeUnit.all.filterMap fun u => (units.lookup u).map fun v => (u, v)
  let sum ← given.foldlM (fun (s : Tally) p => s.add p.1 p.2) {}
  check sum.round

/-- A span in hours, as the nearest double of its seconds divided by the seconds of an hour. -/
def hours (d : Duration) : Float :=
  match (Value.int d).div (.int 1000000) with
  | .ok (.float x) => x / 3600.0
  | _ => 0.0

end Duration

end DecisionGate
