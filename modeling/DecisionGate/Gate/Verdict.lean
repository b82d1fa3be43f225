import DecisionGate.Schema.Field

/-!
The verdict of a checkpoint: whether it passed, the vetoes that stopped it or the criteria that were
evaluated, and what to do next. A verdict can be written as a document and read back.
-/
namespace DecisionGate.Gate

inductive Severity where
  | critical
  | major
  deriving DecidableEq, Repr

namespace Severity

def text : Severity → String
  | .critical => "CRITICAL"
  | .major => "MAJOR"

def all : List Severity := [.critical, .major]

end Severity

inductive Recommendation where
  | fixRequired
  | reviewAndFix
  | checkConfiguration
  deriving DecidableEq, Repr

namespace Recommendation

def text : Recommendation → String
  | .fixRequired => "FIX_REQUIRED"
  | .reviewAndFix => "REVIEW_AND_FIX"
  | .checkConfiguration => "CHECK_CONFIGURATION"

def all : List Recommendation := [.fixRequired, .reviewAndFix, .checkConfiguration]

end Recommendation

inductive VetoKind where
  | truthfulness
  | guardrails
  | lowDimension
  | belief
  | missingFields
  deriving DecidableEq, Repr

namespace VetoKind

def text : VetoKind → String
  | .truthfulness => "truthfulness"
  | .guardrails => "guardrails"
  | .lowDimension => "axiom_minimum"
  | .belief => "axiom_veto"
  | .missingFields => "missing_fields"

def all : List VetoKind := [.truthfulness, .guardrails, .lowDimension, .belief, .missingFields]

end VetoKind

/-- One condition that stops a gate. -/
structure Veto where
  kind : VetoKind
  message : String
  executor : Option String := none
  task : Option String := none
  dimension : Option String := none
  value : Option Float := none
  threshold : Option Float := none
  missing : Option (List String) := none
  required : Option String := none

/-- What became of one criterion. -/
structure CriterionResult where
  criterion : String
  field : String
  passed : Bool
  actual : Value := .null
  expected : String
  message : Option String := none

structure Verdict where
  gate : String
  passed : Bool
  skipped : Bool := false
  veto : Bool := false
  error : Bool := false
  severity : Option Severity := none
  recommendation : Option Recommendation := none
  message : Option String := none
  heuristic : Option String := none
  validator : Option String := none
  score : Option Float := none
  leastScore : Option Float := none
  dimensions : Option (List (String × Float)) := none
  missingFields : Option (List (String × List String)) := none
  vetoes : List Veto := []
  criteria : List CriterionResult := []
  feedback : Option String := none

def ofDouble? (x : Option Float) : Value := (x.map .float).getD .null

def Veto.toValue (v : Veto) : Value :=
  Value.ofNames
    [("type", .str v.kind.text), ("message", .str v.message),
     ("executor", Value.ofText? v.executor), ("task", Value.ofText? v.task),
     ("dimension", Value.ofText? v.dimension), ("value", ofDouble? v.value),
     ("threshold", ofDouble? v.threshold), ("missing", (v.missing.map Value.ofTexts).getD .null),
     ("required", Value.ofText? v.required)]

def CriterionResult.toValue (r : CriterionResult) : Value :=
  Value.ofNames
    [("criterion", .str r.criterion), ("field", .str r.field), ("passed", .bool r.passed),
     ("actual", r.actual), ("expected", .str r.expected), ("message", Value.ofText? r.message)]

def dimensionsValue (ds : List (String × Float)) : Value :=
  Value.ofNames (ds.map fun (name, x) => (name, .float x))

def missingValue (ms : List (String × List String)) : Value :=
  Value.ofNames (ms.map fun (name, fields) => (name, Value.ofTexts fields))

/-- Every field, null for those that are absent. -/
def Verdict.toEntries (v : Verdict) : List (String × Value) :=
  [("gate", .str v.gate), ("passed", .bool v.passed), ("skipped", .bool v.skipped),
   ("veto", .bool v.veto), ("error", .bool v.error),
   ("severity", Value.ofText? (v.severity.map Severity.text)),
   ("recommendation", Value.ofText? (v.recommendation.map Recommendation.text)),
   ("message", Value.ofText? v.message), ("heuristic_id", Value.ofText? v.heuristic),
   ("validator", Value.ofText? v.validator), ("score", ofDouble? v.score),
   ("min_score", ofDouble? v.leastScore),
   ("dimensions", (v.dimensions.map dimensionsValue).getD .null),
   ("missing_fields", (v.missingFields.map missingValue).getD .null),
   ("vetoes", .list (v.vetoes.map Veto.toValue)),
   ("criteria_results", .list (v.criteria.map CriterionResult.toValue)),
   ("feedback", Value.ofText? v.feedback)]

open Schema

def oneOf {α : Type} (name : α → String) (options : List α) : Value → Checked α :=
  choice (options.map fun o => (name o, o))

def model {α : Type} (title : String) (check : Entries → Checked α) (v : Value) : Checked α :=
  match v with
  | .map es => check es
  | v => refuse (.model title) v

def Veto.ofValue : Value → Checked Veto :=
  model "Veto" fun es =>
    Checked.ap (Checked.ap (Checked.ap (Checked.ap (Checked.ap (Checked.ap (Checked.ap (Checked.ap
      ((Schema.required es "type" (oneOf VetoKind.text VetoKind.all)).map Veto.mk)
      (Schema.required es "message" text))
      (withDefault es "executor" (optional text) none))
      (withDefault es "task" (optional text) none))
      (withDefault es "dimension" (optional text) none))
      (withDefault es "value" (optional number) none))
      (withDefault es "threshold" (optional number) none))
      (withDefault es "missing" (optional (listOf text)) none))
      (withDefault es "required" (optional text) none)

def CriterionResult.ofValue : Value → Checked CriterionResult :=
  model "CriterionResult" fun es =>
    Checked.ap (Checked.ap (Checked.ap (Checked.ap (Checked.ap
      ((Schema.required es "criterion" text).map CriterionResult.mk)
      (Schema.required es "field" text))
      (Schema.required es "passed" boolean))
      (withDefault es "actual" .ok .null))
      (Schema.required es "expected" text))
      (withDefault es "message" (optional text) none)

def Verdict.ofValue : Value → Checked Verdict :=
  model "GateResult" fun es =>
    let optionalText (name : String) := withDefault es name (optional text) none
    let optionalNumber (name : String) := withDefault es name (optional number) none
    let flag (name : String) := withDefault es name boolean false
    Checked.ap (Checked.ap (Checked.ap (Checked.ap (Checked.ap (Checked.ap (Checked.ap (Checked.ap
    (Checked.ap (Checked.ap (Checked.ap (Checked.ap (Checked.ap (Checked.ap (Checked.ap (Checked.ap
      ((Schema.required es "gate" text).map Verdict.mk)
      (Schema.required es "passed" boolean))
      (flag "skipped"))
      (flag "veto"))
      (flag "error"))
      (withDefault es "severity" (optional (oneOf Severity.text Severity.all)) none))
      (withDefault es "recommendation"
        (optional (oneOf Recommendation.text Recommendation.all)) none))
      (optionalText "message"))
      (optionalText "heuristic_id"))
      (optionalText "validator"))
      (optionalNumber "score"))
      (optionalNumber "min_score"))
      (withDefault es "dimensions" (optional (mappingOf number)) none))
      (withDefault es "missing_fields" (optional (mappingOf (listOf text))) none))
      (withDefault es "vetoes" (listOf Veto.ofValue) []))
      (withDefault es "criteria_results" (listOf CriterionResult.ofValue) []))
      (optionalText "feedback")

end DecisionGate.Gate
