import DecisionGate.Heuristic.Scoring
import DecisionGate.Heuristic.Builtin
import DecisionGate.Heuristic.Input
import DecisionGate.Value.Text

/-!
Decisions of the built-in heuristics, as callers see them: the score with what it is made of, the
recommendation, and a veto with its reason.
-/
namespace DecisionGate

structure Decision where
  heuristic : Builtin
  score : Value
  veto : Bool
  vetoReason : Option String
  recommendation : String
  breakdown : List (String × Value)
  metadata : List (String × Value)
  /-- What only this heuristic reports: the name in a result, the name in a context, the value. -/
  details : List (String × String × Value)

mutual

/-- Doubles that are not finite have no form inside a report. -/
def Value.finite : Value → Value
  | .float x => if Double.isFinite x then .float x else .null
  | .list xs => .list (finiteItems xs)
  | .map es => .map (finiteEntries es)
  | v => v

def finiteItems : List Value → List Value
  | [] => []
  | v :: rest => v.finite :: finiteItems rest

def finiteEntries : List (Key × Value) → List (Key × Value)
  | [] => []
  | (k, v) :: rest => (k, v.finite) :: finiteEntries rest

end

namespace Decision

def reportOf (fields : List (String × Value)) : Value := (Value.ofNames fields).finite

/-- The report with its names as they are written in JSON; an absent reason is left out. -/
def toJson (d : Decision) : Value :=
  Value.ofNames
    ([("heuristic", .str d.heuristic.id), ("score", d.score), ("veto", .bool d.veto)] ++
      (match d.vetoReason with
        | some reason => [("vetoReason", .str reason)]
        | none => []) ++
      [("recommendation", .str d.recommendation), ("breakdown", reportOf d.breakdown),
       ("metadata", reportOf d.metadata)] ++
      d.details.map fun (json, _, v) => (json, v))

/-- The report under the names of a context, every field present. -/
def toEntries (d : Decision) : Entries :=
  Entries.ofNames
    ([("heuristic", .str d.heuristic.id), ("score", d.score), ("veto", .bool d.veto),
      ("veto_reason", Value.ofText? d.vetoReason), ("recommendation", .str d.recommendation),
      ("breakdown", reportOf d.breakdown), ("metadata", reportOf d.metadata)] ++
      d.details.map fun (_, plain, v) => (plain, v))

end Decision

def Priority.text : Priority → String
  | .high => "HIGH"
  | .medium => "MEDIUM"
  | .low => "LOW"

def Confidence.text : Confidence → String
  | .high => "high"
  | .medium => "medium"
  | .low => "low"

def Confidence.accuracy : Confidence → String
  | .high => "85%"
  | .medium => "70%"
  | .low => "50%"

namespace BackCasting

def Recommendation.text : Recommendation → String
  | .proceed => "PROCEED"
  | .review => "REVIEW"
  | .defer => "DEFER"

def decision (i : BackCastingInput) (o : Outcome Value) : Decision where
  heuristic := .backCasting
  score := o.score
  veto := false
  vetoReason := none
  recommendation := o.recommendation.text
  breakdown :=
    [("end_state_contribution", o.endStateContribution),
     ("market_contribution", o.marketContribution),
     ("end_state_clarity", .float i.clarity), ("market_alignment", .float i.alignment)]
  metadata :=
    [("decision_speed", .str (if o.fast then "< 1 hour" else "1-3 days")),
     ("accuracy_estimate", .str o.confidence.accuracy), ("time_horizon", .str "3-5 years")]
  details :=
    [("priority", "priority", .str o.priority.text),
     ("confidence", "confidence", .str o.confidence.text)]

def decide (s : Settings Value) (i : BackCastingInput) : Except Fault Decision :=
  (assess s (.float i.clarity) (.float i.alignment)).map (decision i)

end BackCasting

namespace Coherence

def Recommendation.text : Recommendation → String
  | .approve => "APPROVE"
  | .review => "REVIEW"
  | .reject => "REJECT"

def Rank.text : Rank → String
  | .excellent => "EXCELLENT"
  | .good => "GOOD"
  | .acceptable => "ACCEPTABLE"
  | .poor => "POOR"

def Factor.text : Factor → String
  | .highTruthfulness => "High truthfulness"
  | .goodFit => "Good system fit"
  | .poorFit => "Poor system fit"
  | .strongSkills => "Strong skills"

def vetoText (i : CoherenceInput) (threshold : Value) : String :=
  let t := Format.fixedDouble 2 i.truthfulness
  s!"TRUTHFULNESS_BELOW_THRESHOLD ({t} < {threshold.text})"

def decision (s : Settings Value) (i : CoherenceInput) (o : Outcome Value) : Decision where
  heuristic := .coherenceScan
  score := o.score
  veto := match o with
    | .vetoed => true
    | .scanned _ => false
  vetoReason := match o with
    | .vetoed => some (vetoText i s.veto)
    | .scanned _ => none
  recommendation := o.recommendation.text
  breakdown := match o with
    | .vetoed =>
      [("truthfulness", .float i.truthfulness), ("system_adherence", .float i.systemAdherence),
       ("skill", .float i.skill)]
    | .scanned c =>
      [("truthfulness", .float i.truthfulness), ("truthfulness_weighted", c.truthfulnessPart),
       ("system_adherence", .float i.systemAdherence),
       ("system_adherence_weighted", c.systemPart),
       ("skill", .float i.skill), ("skill_weighted", c.skillPart)]
  metadata := match o with
    | .vetoed => [("veto_power", .str "TRUTHFULNESS"), ("critical_failure", .bool true)]
    | .scanned c =>
      [("hierarchy_rank", .str c.rank.text),
       ("critical_factors", Value.ofTexts (c.factors.map Factor.text))]
  details := []

def decide (s : Settings Value) (i : CoherenceInput) : Except Fault Decision :=
  (assess s (.float i.truthfulness) (.float i.systemAdherence) (.float i.skill)).map (decision s i)

end Coherence

namespace Automation

def Recommendation.text : Recommendation → String
  | .automateNow => "AUTOMATE_NOW"
  | .planAutomation => "PLAN_AUTOMATION"
  | .standardizeFirst => "STANDARDIZE_FIRST"
  | .addGuardrails => "ADD_GUARDRAILS"
  | .addGuardrailsFirst => "ADD_GUARDRAILS_FIRST"
  | .keepManual => "KEEP_MANUAL"

def Effort.text : Effort → String
  | .weeks => "1-2 weeks"
  | .month => "2-4 weeks"
  | .months => "1-2 months"

def nextSteps : List String :=
  ["Define error handling procedures", "Create validation checkpoints",
   "Establish rollback mechanisms", "Document edge cases"]

def returnEstimate (c : Check Value) : String :=
  if c.ready then "HIGH" else if c.tippingPoint then "MEDIUM" else "LOW"

def decision (i : AutomationInput) (o : Outcome Value) : Decision where
  heuristic := .automationCheck
  score := o.score
  veto := match o with
    | .vetoed _ => true
    | .checked _ => false
  vetoReason := match o with
    | .vetoed _ => some "MISSING_GUARDRAILS - Cannot automate without safety mechanisms"
    | .checked _ => none
  recommendation := o.recommendation.text
  breakdown := match o with
    | .vetoed _ =>
      [("frequency", .float i.frequency), ("standardizable", .float i.standardizable),
       ("has_guardrails", .bool false)]
    | .checked c =>
      [("frequency", .float i.frequency), ("frequency_normalized", c.normalizedFrequency),
       ("frequency_weighted", c.frequencyPart), ("standardizable", .float i.standardizable),
       ("standardizable_weighted", c.standardizablePart), ("has_guardrails", .bool true),
       ("guardrails_weighted", c.guardrailsPart)]
  metadata := match o with
    | .vetoed _ =>
      [("veto_power", .str "GUARDRAILS"), ("critical_failure", .bool true),
       ("next_steps", Value.ofTexts nextSteps)]
    | .checked c =>
      [("roi_estimate", .str (returnEstimate c)), ("time_to_automate", .str c.effort.text),
       ("risk_level", .str "LOW"), ("annual_savings", c.annualSavings)]
  details :=
    let ready := match o with
      | .vetoed _ => false
      | .checked c => c.ready
    let tippingPoint := match o with
      | .vetoed t => t
      | .checked c => c.tippingPoint
    [("readyToAutomate", "ready_to_automate", .bool ready),
     ("tippingPoint", "tipping_point", .bool tippingPoint)]

def decide (s : Settings Value) (i : AutomationInput) : Except Fault Decision :=
  (assess s (.float i.frequency) (.float i.standardizable) i.hasGuardrails).map (decision i)

end Automation

end DecisionGate
