import DecisionGate.Heuristic.Alias
import DecisionGate.Numeric.Format
import DecisionGate.Value.Arithmetic

/-!
The lenient reading of a context: absent quantities count as zero or as absent guardrails, present
ones have to be numbers in their range. What is let through lies in the range, so the scoring rules
need no checks of their own.
-/
namespace DecisionGate

/-- Why a context is refused. A number that is out of range is shown as a double. -/
inductive InputProblem where
  | notMapping (purpose kind : String)
  | notNumber (field kind : String)
  | notRatio (field : String) (x : Float)
  | negative (field : String) (x : Float)
  | notFlag (field kind : String)
  | other (message : String) (field : String)

namespace InputProblem

def message : InputProblem → String
  | notMapping purpose kind => s!"{purpose} required (got {kind})"
  | notNumber field kind => s!"Field '{field}' must be a number (got {kind})"
  | notRatio field x => s!"Field '{field}' must be between 0 and 1 (got {Format.double x})"
  | negative field x => s!"Field '{field}' must be non-negative (got {Format.double x})"
  | notFlag field kind => s!"Field '{field}' must be a boolean or a list (got {kind})"
  | other message _ => message

def field? : InputProblem → Option String
  | notMapping _ _ => none
  | notNumber field _ => some field
  | notRatio field _ => some field
  | negative field _ => some field
  | notFlag field _ => some field
  | other _ field => some field

end InputProblem

/-- Reading stops at a refused input or at an integer that no double can hold. -/
inductive InputFailure where
  | problem (p : InputProblem)
  | fault (f : Fault)

structure BackCastingInput where
  clarity : Float
  alignment : Float

structure CoherenceInput where
  truthfulness : Float
  systemAdherence : Float
  skill : Float

structure AutomationInput where
  frequency : Float
  standardizable : Float
  hasGuardrails : Bool

namespace Input

def requireMapping (context : Value) (purpose : String) : Except InputFailure Unit :=
  match context with
  | .map _ => .ok ()
  | v => .error (.problem (.notMapping purpose v.kindName))

def number (field : String) : Value → Except InputFailure Float
  | .null => .ok 0.0
  | .float x => .ok x
  | .int i =>
    match Double.ofInt? i with
    | some x => .ok x
    | none => .error (.fault .integerTooLarge)
  | v => .error (.problem (.notNumber field v.kindName))

def ratio (field : String) (v : Value) : Except InputFailure Float := do
  let x ← number field v
  if x < 0.0 || 1.0 < x then .error (.problem (.notRatio field x)) else .ok x

def count (field : String) (v : Value) : Except InputFailure Float := do
  let x ← number field v
  if x < 0.0 then .error (.problem (.negative field x)) else .ok x

/-- A list of guardrails counts as present when it is not empty. -/
def flag (field : String) : Value → Except InputFailure Bool
  | .null => .ok false
  | .bool b => .ok b
  | .list xs => .ok (!xs.isEmpty)
  | v => .error (.problem (.notFlag field v.kindName))

/-- The value of a canonical field. -/
def canonicalField (aliases : List Alias) (context : Value) (field : String) : Value :=
  (Entries.get? (canonical aliases context) field).getD .null

end Input

open Input

def BackCastingInput.ofContext (context : Value) : Except InputFailure BackCastingInput := do
  requireMapping context "Context for back-casting"
  let get := canonicalField backCastingAliases context
  let clarity ← ratio "end_state_clarity" (get "end_state_clarity")
  let alignment ← ratio "market_alignment" (get "market_alignment")
  .ok { clarity, alignment }

def CoherenceInput.ofContext (context : Value) : Except InputFailure CoherenceInput := do
  requireMapping context "Person for coherence scan"
  let get := canonicalField coherenceAliases context
  let truthfulness ← ratio "truthfulness" (get "truthfulness")
  let systemAdherence ← ratio "system_adherence" (get "system_adherence")
  let skill ← ratio "skill" (get "skill")
  .ok { truthfulness, systemAdherence, skill }

def AutomationInput.ofContext (context : Value) : Except InputFailure AutomationInput := do
  requireMapping context "Task for automation check"
  let get := canonicalField automationAliases context
  let frequency ← count "frequency" (get "frequency")
  let standardizable ← ratio "standardizable" (get "standardizable")
  let hasGuardrails ← flag "has_guardrails" (get "has_guardrails")
  .ok { frequency, standardizable, hasGuardrails }

/-- The input of any built-in heuristic under its canonical names. -/
def Builtin.adapt (b : Builtin) (context : Value) : Except InputFailure Entries :=
  match b with
  | .backCasting => do
    let i ← BackCastingInput.ofContext context
    .ok (Entries.ofNames
      [("end_state_clarity", .float i.clarity), ("market_alignment", .float i.alignment)])
  | .coherenceScan => do
    let i ← CoherenceInput.ofContext context
    .ok (Entries.ofNames
      [("truthfulness", .float i.truthfulness), ("system_adherence", .float i.systemAdherence),
       ("skill", .float i.skill)])
  | .automationCheck => do
    let i ← AutomationInput.ofContext context
    .ok (Entries.ofNames
      [("frequency", .float i.frequency), ("standardizable", .float i.standardizable),
       ("has_guardrails", .bool i.hasGuardrails)])

end DecisionGate
