import DecisionGate.Text.Case
import DecisionGate.Value.Arithmetic
import DecisionGate.Value.Text

/-!
Observability of the services: the records that were logged, cache counters, timers and the log of
fallbacks. Reporting never fails; what cannot be recorded is left out. Reading an exhausted clock
fails and so records nothing.
-/
namespace DecisionGate

namespace Telemetry

inductive Level where
  | debug
  | info
  | warning
  | error
  deriving DecidableEq, Repr

def Level.text : Level → String
  | .debug => "DEBUG"
  | .info => "INFO"
  | .warning => "WARNING"
  | .error => "ERROR"

/-- The numbers of the levels. -/
def Level.number : Level → Nat
  | .debug => 10
  | .info => 20
  | .warning => 30
  | .error => 40

/-- Unknown names stand for the level of plain information. -/
def Level.ofName (name : String) : Level :=
  match String.ofList (Text.upper name.toList) with
  | "DEBUG" => .debug
  | "WARN" => .warning
  | "WARNING" => .warning
  | "ERROR" => .error
  | _ => .info

structure Event where
  level : Level
  component : String
  name : String
  deriving DecidableEq, Repr

/-- Readings to come: given ones until they are used up, or one second after another for ever. -/
inductive Clock where
  | readings (rest : List Value)
  | ticking (next : Nat)

def Clock.read? : Clock → Option (Value × Clock)
  | .readings [] => none
  | .readings (x :: rest) => some (x, .readings rest)
  | .ticking n => some (.int n, .ticking (n + 1))

structure Timer where
  id : Key
  operation : Key
  started : Value
  metadata : Entries

structure Timing where
  id : Key
  operation : Key
  milliseconds : Value
  metadata : Entries

structure Fallback where
  reason : Value
  metadata : Entries

end Telemetry

open Telemetry

structure Telemetry where
  clock : Clock := .ticking 0
  limit : Nat := 1000
  hits : Nat := 0
  misses : Nat := 0
  timers : List Timer := []
  durations : List Timing := []
  fallbacks : List Fallback := []
  events : List Event := []

namespace Telemetry

/-- The last `n` of a list. -/
def lastOf {α : Type} (n : Nat) (xs : List α) : List α := xs.drop (xs.length - n)

def log (t : Telemetry) (level : Level) (component name : String) : Telemetry :=
  { t with events := t.events ++ [⟨level, component, name⟩] }

def debug (t : Telemetry) (component name : String) : Telemetry := t.log .debug component name

/-- Metadata as a mapping: nothing counts as the empty one, and a list of pairs as theirs. -/
def mapping? (v : Value) : Option Entries :=
  if !v.isTruthy then some []
  else
    match v with
    | .map es => some es
    | .list items =>
      let pair? : Value → Option (Key × Value)
        | .list [.str k, v] => some (.str k, v)
        | .list [.int k, v] => some (.int k, v)
        | .list [.float k, v] => some (.float k, v)
        | .list [.bool k, v] => some (.bool k, v)
        | .list [.null, v] => some (.null, v)
        | .str s => match s.toList with
          | [a, b] => some (.str (String.singleton a), .str (String.singleton b))
          | _ => none
        | .map [(a, _), (b, _)] => some (a, b.toValue)
        | _ => none
      (items.mapM pair?).map Entries.ofList
    | _ => none

/-- Metadata that already has to be a mapping. -/
def entries? (v : Value) : Option Entries :=
  if !v.isTruthy then some [] else v.entries?

def component (metadata : Entries) : String :=
  ((metadata.get? "component").map Value.text).getD "cache"

def recordHit (t : Telemetry) (metadata : Value := .null) : Telemetry :=
  let t := { t with hits := t.hits + 1 }
  match entries? metadata with
  | some es => t.debug (component es) "cache_hit"
  | none => t

def recordMiss (t : Telemetry) (metadata : Value := .null) : Telemetry :=
  let t := { t with misses := t.misses + 1 }
  match entries? metadata with
  | some es => t.debug (component es) "cache_miss"
  | none => t

def recordFallback (t : Telemetry) (reason metadata : Value) : Telemetry :=
  match mapping? metadata with
  | some es => { t with fallbacks := lastOf t.limit (t.fallbacks ++ [⟨reason, es⟩]) }
  | none => t

/-- A timer that runs already starts anew. -/
def putTimer (timer : Timer) : List Timer → List Timer
  | [] => [timer]
  | t :: rest => if t.id.sameAs timer.id then timer :: rest else t :: putTimer timer rest

def startTimer (t : Telemetry) (id operation : Key) (metadata : Value := .null) : Telemetry :=
  match t.clock.read? with
  | none => t
  | some (now, clock) =>
    let t := { t with clock }
    match mapping? metadata with
    | none => t
    | some es => { t with timers := putTimer ⟨id, operation, now, es⟩ t.timers }

/-- Milliseconds between two readings. -/
def elapsed? (started now : Value) : Option Value :=
  let difference : Except Fault Value :=
    match started, now with
    | .int a, .int b => .ok (.int (b - a))
    | a, b =>
      match a.number?, b.number? with
      | some m, some n => Number.ofDoubles (· - ·) n m
      | _, _ => .error .integerTooLarge
  match difference.bind fun d => d.mul (.float 1000.0) with
  | .ok ms => some ms
  | .error _ => none

/-- Stops a timer and gives its duration, none when it was never started. -/
def endTimer (t : Telemetry) (id : Key) (metadata : Value := .null) : Option Value × Telemetry :=
  match t.timers.find? fun r => r.id.sameAs id with
  | none => (none, t)
  | some timer =>
    let t := { t with timers := t.timers.filter fun r => !r.id.sameAs id }
    match t.clock.read? with
    | none => (none, t)
    | some (now, clock) =>
      let t := { t with clock }
      match elapsed? timer.started now, entries? metadata with
      | some ms, some es =>
        let d : Timing := ⟨id, timer.operation, ms, Entries.update timer.metadata es⟩
        (some ms, { t with durations := lastOf t.limit (t.durations ++ [d]) })
      | _, _ => (none, t)

/-- Runs of one kind of operation, in the order in which the kinds first came. -/
def timings (t : Telemetry) : List (Key × List Value) :=
  let rec insert (k : Key) (v : Value) : List (Key × List Value) → List (Key × List Value)
    | [] => [(k, [v])]
    | (k', vs) :: rest =>
      if k'.sameAs k then (k', vs ++ [v]) :: rest else (k', vs) :: insert k v rest
  t.durations.foldl (fun acc d => insert d.operation d.milliseconds acc) []

def mean (vs : List Value) : Value :=
  let sum := vs.foldlM Value.add (.int 0)
  match sum.bind fun s => s.div (.int vs.length) with
  | .ok v => v
  | .error _ => .null

def rate (hits misses : Nat) : Value :=
  if hits + misses = 0 then .float 0.0
  else
    match (Value.int hits).div (.int (hits + misses : Nat)) with
    | .ok v => v
    | .error _ => .null

def summary (t : Telemetry) : Value :=
  Value.ofNames
    [("cache", Value.ofNames
        [("hits", .int t.hits), ("misses", .int t.misses), ("hit_rate", rate t.hits t.misses)]),
     ("fallbacks", .int t.fallbacks.length),
     ("timings_ms", .map (t.timings.map fun (k, vs) => (k, mean vs))),
     ("open_timers", .int t.timers.length)]

def Timing.toValue (d : Timing) : Value :=
  Value.ofNames
    [("operation_id", d.id.toValue), ("operation_type", d.operation.toValue),
     ("duration_ms", d.milliseconds), ("metadata", .map d.metadata)]

def Fallback.toValue (f : Fallback) : Value :=
  Value.ofNames [("reason", f.reason), ("metadata", .map f.metadata)]

/-- The clock and the records stay. -/
def reset (t : Telemetry) : Telemetry :=
  { t with hits := 0, misses := 0, timers := [], durations := [], fallbacks := [] }

end Telemetry

end DecisionGate
