import DecisionGate.Telemetry

/-!
What a service reports while it works, as data. No service looks at what was reported, so each
returns its result with its notes, and whoever owns the telemetry writes the notes down.
-/
namespace DecisionGate

/-- Timers of one operation end in the reverse of the order in which they started. -/
inductive Note where
  | log (level : Telemetry.Level) (component name : String)
  | hit (component : String)
  | miss (component : String)
  | fallback (reason : String) (metadata : Entries)
  | started (operation : String)
  | ended (operation : String)

/-- A result and the notes made on the way to it. -/
structure Report (α : Type) where
  value : α
  notes : List Note := []

namespace Report

variable {α β : Type}

protected def pure (a : α) : Report α := ⟨a, []⟩

protected def bind (r : Report α) (f : α → Report β) : Report β :=
  let s := f r.value
  ⟨s.value, r.notes ++ s.notes⟩

instance : Monad Report where
  pure := Report.pure
  bind := Report.bind

@[simp] theorem value_pure (a : α) : (pure a : Report α).value = a := rfl

@[simp] theorem notes_pure (a : α) : (pure a : Report α).notes = [] := rfl

@[simp] theorem value_bind (r : Report α) (f : α → Report β) :
    (r >>= f).value = (f r.value).value := rfl

@[simp] theorem notes_bind (r : Report α) (f : α → Report β) :
    (r >>= f).notes = r.notes ++ (f r.value).notes := rfl

end Report

/-- Makes one note. -/
def note (n : Note) : Report Unit := ⟨(), [n]⟩

def noteInfo (component name : String) : Report Unit := note (.log .info component name)

def noteWarning (component name : String) : Report Unit := note (.log .warning component name)

def noteError (component name : String) : Report Unit := note (.log .error component name)

namespace Telemetry

/-- The operation that has one timer, which starts anew when it runs already. -/
def singleTimer : String := "config_load"

/-- A key that no running timer has. -/
def freshTimer (t : Telemetry) : Key :=
  .int ((t.timers.filterMap fun r => r.id.integer?).foldl max (-1) + 1)

/-- The timer of an operation that started last. -/
def lastTimer? (t : Telemetry) (operation : String) : Option Key :=
  (t.timers.reverse.find? fun r => r.operation.sameAs (.str operation)).map Timer.id

def write (t : Telemetry) : Note → Telemetry
  | .log level component name => t.log level component name
  | .hit component => t.recordHit (Value.ofNames [("component", .str component)])
  | .miss component => t.recordMiss (Value.ofNames [("component", .str component)])
  | .fallback reason metadata => t.recordFallback (.str reason) (.map metadata)
  | .started operation =>
    t.startTimer (if operation = singleTimer then .str operation else t.freshTimer) (.str operation)
  | .ended operation =>
    match t.lastTimer? operation with
    | some id => (t.endTimer id).2
    | none => t

def writeAll (t : Telemetry) (notes : List Note) : Telemetry := notes.foldl write t

end Telemetry

end DecisionGate
