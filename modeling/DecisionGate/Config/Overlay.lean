import DecisionGate.Config.Defaults
import DecisionGate.Numeric.Reader
import DecisionGate.Text.Case

/-!
Environment variables that override single parameters of a configuration. A variable that is set
wins over the document, and the document over the defaults; the document itself is never changed.

A document is a tree here: a mapping that an override goes through stands in one place of it. An
alias in a file can put such a mapping in a second place, and what is written is then seen there
too; such documents are left out.
-/
namespace DecisionGate.Config

/-- A variable and the path that it overrides, a chain of mappings and the name in the last. -/
structure Override where
  varName : String
  path : List String
  name : String
  deriving DecidableEq, Repr

def parameterOverride (varName : String) (b : Builtin) (g : Group) (name : String) : Override :=
  ⟨varName, ["heuristics", b.id, g.name], name⟩

def overrides : List Override :=
  [parameterOverride "HEURISTIC_BS001_END_STATE_WEIGHT" .backCasting .weights "end_state_vision",
   parameterOverride "HEURISTIC_BS001_MARKET_WEIGHT" .backCasting .weights
     "current_market_signals",
   parameterOverride "HEURISTIC_BS001_CONFIDENCE_THRESHOLD" .backCasting .thresholds "confidence",
   parameterOverride "HEURISTIC_BS001_PRIORITY_THRESHOLD" .backCasting .thresholds "priority",
   parameterOverride "HEURISTIC_PA001_TRUTHFULNESS_WEIGHT" .coherenceScan .weights "truthfulness",
   parameterOverride "HEURISTIC_PA001_SYSTEM_WEIGHT" .coherenceScan .weights "system_adherence",
   parameterOverride "HEURISTIC_PA001_SKILL_WEIGHT" .coherenceScan .weights "skill",
   parameterOverride "HEURISTIC_PA001_VETO_THRESHOLD" .coherenceScan .thresholds "veto",
   parameterOverride "HEURISTIC_PA001_APPROVE_THRESHOLD" .coherenceScan .thresholds "approve",
   parameterOverride "HEURISTIC_PA001_REVIEW_THRESHOLD" .coherenceScan .thresholds "review",
   parameterOverride "HEURISTIC_PM001_FREQUENCY_WEIGHT" .automationCheck .weights "frequency",
   parameterOverride "HEURISTIC_PM001_STANDARDIZATION_WEIGHT" .automationCheck .weights
     "standardization",
   parameterOverride "HEURISTIC_PM001_GUARDRAILS_WEIGHT" .automationCheck .weights "guardrails",
   parameterOverride "HEURISTIC_PM001_TIPPING_POINT" .automationCheck .thresholds "tipping_point",
   parameterOverride "HEURISTIC_PM001_STANDARDIZATION_THRESHOLD" .automationCheck .thresholds
     "standardization",
   parameterOverride "HEURISTIC_PM001_AUTOMATE_THRESHOLD" .automationCheck .thresholds "automate",
   ⟨"VALIDATION_STRICT_MODE", ["validation"], "strict_mode"⟩,
   ⟨"VALIDATION_MINIMUM_SCORE", ["validation"], "minimum_score"⟩]

/-- Variables that are set, with their texts. -/
abbrev Environment := List (String × String)

/-- A truth value, a finite number, or the text itself. -/
def coerce (raw : String) : Value :=
  match String.ofList (Text.lower (Text.trim raw.toList)) with
  | "true" => .bool true
  | "false" => .bool false
  | _ =>
    match Decimal.readDouble? raw with
    | some x => if Double.isFinite x then .float x else .str raw
    | none => .str raw

/-- Sets a name below a path of a tree; what stands on the path and is no mapping gives way to
one. -/
def setAt (es : Entries) (path : List String) (name : String) (v : Value) : Entries :=
  match path with
  | [] => es.set name v
  | step :: rest =>
    let child := match es.get? step with
      | some (.map child) => child
      | _ => []
    es.set step (.map (setAt child rest name v))

/-- The overrides whose variables are set, in the order of the table. -/
def present (env : Environment) : List (Override × Value) :=
  overrides.filterMap fun o => (env.lookup o.varName).map fun raw => (o, coerce raw)

/-- The tree with all values written to it, one after the other. -/
def applyAll (es : Entries) (values : List (Override × Value)) : Entries :=
  values.foldl (fun acc (o, v) => setAt acc o.path o.name v) es

/-- The document with the variables that are set, none when there are none. An empty document
stands for the defaults. -/
def overlay (file : Value) (env : Environment) : Except Fault (Option Entries) :=
  match present env with
  | [] => .ok none
  | values =>
    match file with
    | .map es => .ok (some (applyAll (if es.isEmpty then defaultEntries else es) values))
    | v =>
      if v.isTruthy then .error (.noMember v.kindName "get")
      else .ok (some (applyAll defaultEntries values))

end DecisionGate.Config
