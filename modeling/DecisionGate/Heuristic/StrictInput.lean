import DecisionGate.Heuristic.Input
import DecisionGate.Schema.Problem

/-!
The strict reading of a context: every problem is collected, in the order of the fields, and only
the alignment may be absent. A number is read as the lenient reading does, so what passes here is
let through there unchanged.
-/
namespace DecisionGate.StrictInput
open Schema

/-- A range with an optional upper end. A NaN breaks the upper end where there is one. -/
structure Range where
  upper : Option Nat
  deriving DecidableEq, Repr

def Range.broken? (r : Range) (x : Float) : Option Expectation :=
  match r.upper with
  | some bound =>
    if Double.isNaN x || Double.compareInt x bound == some .gt then some (.atMost bound)
    else if x < 0.0 then some (.atLeast 0) else none
  | none => if 0.0 ≤ x then none else some (.atLeast 0)

/-- A number that is no text and no truth value, within a range. -/
def checkNumber (r : Range) (v : Value) : Except Expectation Value :=
  let check (x : Float) : Except Expectation Value :=
    match r.broken? x with
    | some e => .error e
    | none => .ok (.float x)
  match v with
  | .float x => check x
  | .int i =>
    match Double.ofInt? i with
    | some x => check x
    | none => .error .number
  | _ => .error .number

/-- A truth value or a list; each alternative has its own problem. -/
def checkGuardrails (v : Value) : Except (List (List Step × Expectation)) Value :=
  match v with
  | .bool b => .ok (.bool b)
  | .list xs => .ok (.list xs)
  | _ => .error [([.name "bool"], .boolean), ([.name "list[any]"], .list)]

inductive Form where
  | number (range : Range)
  | guardrails
  deriving DecidableEq, Repr

structure Field where
  name : String
  form : Form
  default? : Option Float

def ratio : Form := .number ⟨some 1⟩

def fields : Builtin → List Field
  | .backCasting =>
    [⟨"end_state_clarity", ratio, none⟩, ⟨"market_alignment", ratio, some 0.0⟩]
  | .coherenceScan =>
    [⟨"truthfulness", ratio, none⟩, ⟨"system_adherence", ratio, none⟩, ⟨"skill", ratio, none⟩]
  | .automationCheck =>
    [⟨"frequency", .number ⟨none⟩, none⟩, ⟨"standardizable", ratio, none⟩,
     ⟨"has_guardrails", .guardrails, none⟩]

def Form.check (form : Form) (v : Value) : Except (List (List Step × Expectation)) Value :=
  match form with
  | .number r => (checkNumber r v).mapError fun e => [([], e)]
  | .guardrails => checkGuardrails v

/-- A field of the resolved values, which hold no null. -/
def Field.check (f : Field) (resolved : Entries) : Except (List Problem) Value :=
  match resolved.get? f.name, f.default? with
  | some v, _ =>
    (f.form.check v).mapError fun es =>
      es.map fun (place, e) => ⟨e, .name f.name :: place, v⟩
  | none, some x => .ok (.float x)
  | none, none => .error [⟨.present, [.name f.name], .map resolved⟩]

/-- Values of all fields, or all problems. -/
def collect (checks : List (String × Except (List Problem) Value)) :
    Except (List Problem) (List (String × Value)) :=
  match checks with
  | [] => .ok []
  | (name, .ok v) :: rest => (collect rest).map ((name, v) :: ·)
  | (_, .error ps) :: rest =>
    match collect rest with
    | .ok _ => .error ps
    | .error more => .error (ps ++ more)

/-- The input of a heuristic under its canonical names. -/
def ofContext (b : Builtin) (context : Value) : Except (List Problem) Entries :=
  let resolved := (canonical b.aliases context).filter fun e => !e.2.isNull
  (collect ((fields b).map fun f => (f.name, f.check resolved))).map Entries.ofNames

end DecisionGate.StrictInput
