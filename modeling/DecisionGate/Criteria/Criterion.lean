import DecisionGate.Criteria.Problem
import DecisionGate.Schema.Field
import DecisionGate.Value.Arithmetic

/-!
One condition of a checkpoint: a field, an operator and, unless the field only has to be present, a
threshold. It compares the value that was found for the field.
-/
namespace DecisionGate.Criteria

inductive Operator where
  | ge
  | gt
  | le
  | lt
  | eq
  | present
  deriving DecidableEq, Repr

def Operator.symbol : Operator → String
  | .ge => ">="
  | .gt => ">"
  | .le => "<="
  | .lt => "<"
  | .eq => "=="
  | .present => "present"

def Operator.all : List Operator := [.ge, .gt, .le, .lt, .eq, .present]

inductive Kind where
  | comparison
  | presence
  | floor
  deriving DecidableEq, Repr

def Kind.name : Kind → String
  | .comparison => "comparison"
  | .presence => "presence"
  | .floor => "floor"

def Kind.all : List Kind := [.comparison, .presence, .floor]

structure Criterion where
  field : String
  operator : Operator
  threshold : Option Float
  label : String
  kind : Kind

/-- Two doubles count as equal when they differ by no more than a billionth, of the larger one or in
all. -/
def isClose (a b : Float) : Bool :=
  if a == b then true
  else if a.abs == Double.infinity || b.abs == Double.infinity then false
  else
    let difference := (b - a).abs
    difference ≤ (1e-9 * b).abs || difference ≤ (1e-9 * a).abs || difference ≤ 1e-9

namespace Criterion

def thresholdText (c : Criterion) : String :=
  (c.threshold.map Format.generalDouble).getD ""

def describe (c : Criterion) : String :=
  match c.kind with
  | .presence => s!"{c.field} present"
  | .floor => s!"no {c.field} below {c.thresholdText}"
  | .comparison => s!"{c.field} {c.operator.symbol} {c.thresholdText}"

def expected (c : Criterion) : String :=
  match c.kind with
  | .presence => "present"
  | _ => s!"{c.operator.symbol} {c.thresholdText}"

/-- Everything about a criterion, with the texts that it is shown by. -/
def toEntries (c : Criterion) : List (String × Value) :=
  [("field", .str c.field), ("operator", .str c.operator.symbol),
   ("threshold", (c.threshold.map .float).getD .null), ("label", .str c.label),
   ("kind", .str c.kind.name), ("expected", .str c.expected), ("description", .str c.describe)]

/-- What is found is compared exactly, save for equality, which needs a double. What is no number
satisfies no comparison. -/
def compare (c : Criterion) (actual : Value) : Except Fault Bool :=
  let order (comparison : Comparison) : Except Fault Bool :=
    match actual.isNumber, actual.number?, c.threshold with
    | true, some n, some t => .ok (n.compare comparison (.float t))
    | _, _, _ => .ok false
  match c.operator with
  | .present => .ok actual.isTruthy
  | .ge => order .ge
  | .gt => order .gt
  | .le => order .le
  | .lt => order .lt
  | .eq =>
    match actual.isNumber, actual.number?, c.threshold with
    | true, some n, some t => n.toDouble.map fun x => isClose x t
    | _, _, _ => .ok false

/-- An operator that asks for presence decides the kind, and a criterion without a label is labelled
by what it says. -/
def make (field : String) (operator : Operator) (threshold : Option Float) (label : String)
    (kind : Kind) : Criterion :=
  let kind := if operator = .present then .presence else kind
  let c : Criterion := { field, operator, threshold, label, kind }
  if label.isEmpty then { c with label := c.describe } else c

/-- A criterion given as a mapping. -/
def ofValue (v : Value) : Schema.Checked Criterion :=
  match v with
  | .map es => do
    let build field operator threshold label kind : Criterion :=
      make field operator threshold label kind
    let c ← Schema.Checked.ap (Schema.Checked.ap (Schema.Checked.ap (Schema.Checked.ap
      ((Schema.required es "field" Schema.text).map build)
      (Schema.required es "operator"
        (Schema.choice (Operator.all.map fun o => (o.symbol, o)))))
      (Schema.withDefault es "threshold" (Schema.optional Schema.number) none))
      (Schema.withDefault es "label" Schema.text ""))
      (Schema.withDefault es "kind" (Schema.choice (Kind.all.map fun k => (k.name, k)))
        .comparison)
    if c.operator != .present && c.threshold.isNone then
      Schema.refuse (.rule s!"Operator {c.operator.symbol} requires a threshold") v
    else .ok c
  | v => Schema.refuse (.model schemaTitle) v

end Criterion

end DecisionGate.Criteria
