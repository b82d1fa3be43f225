import DecisionGate.Heuristic.Builtin
import DecisionGate.Value.Arithmetic

/-!
The configuration document that stands in when there is no valid one, and the section of a document
that belongs to one heuristic.
-/
namespace DecisionGate

/-- The two groups of parameters in a section. -/
inductive Group where
  | weights
  | thresholds
  deriving DecidableEq, Repr

def Group.name : Group → String
  | .weights => "weights"
  | .thresholds => "thresholds"

namespace Config

def defaultWeights : Builtin → List (String × Value)
  | .backCasting => [("end_state_vision", .float 0.9), ("current_market_signals", .float 0.1)]
  | .coherenceScan =>
    [("truthfulness", .float 1.0), ("system_adherence", .float 0.8), ("skill", .float 0.3)]
  | .automationCheck =>
    [("frequency", .float 0.7), ("standardization", .float 0.9), ("guardrails", .float 1.0)]

def defaultThresholds : Builtin → List (String × Value)
  | .backCasting => [("confidence", .float 0.8), ("priority", .float 0.8)]
  | .coherenceScan => [("veto", .float 0.7), ("approve", .float 0.8), ("review", .float 0.6)]
  | .automationCheck =>
    [("tipping_point", .int 2), ("standardization", .float 0.7), ("automate", .float 0.75)]

def defaultGroup (b : Builtin) : Group → List (String × Value)
  | .weights => defaultWeights b
  | .thresholds => defaultThresholds b

def defaultSection (b : Builtin) : Value :=
  Value.ofNames
    [("weights", Value.ofNames (defaultWeights b)),
     ("thresholds", Value.ofNames (defaultThresholds b))]

def defaultValidation : Entries :=
  Entries.ofNames
    [("strict_mode", .bool false), ("minimum_score", .float 7.0), ("enable_veto", .bool true)]

def defaultEntries : Entries :=
  Entries.ofNames
    [("version", .str "1.0"),
     ("heuristics", Value.ofNames (Builtin.all.map fun b => (b.id, defaultSection b))),
     ("validation", .map defaultValidation)]

/-- The section of a heuristic; the empty mapping when there is none or something else is there. -/
def sectionOf (config : Entries) (id : String) : Entries :=
  match ((config.get? "heuristics").getD .null).field id with
  | .map es => es
  | _ => []

/-- The section in a document of any kind. An empty document has none, and one that is no mapping
cannot be asked for it. -/
def sectionOfValue (config : Value) (id : String) : Except Fault Entries :=
  match config with
  | .map es => .ok (sectionOf es id)
  | v => if v.isTruthy then .error (.noMember v.kindName "get") else .ok []

end Config

end DecisionGate
