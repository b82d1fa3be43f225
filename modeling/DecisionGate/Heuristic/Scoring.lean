import DecisionGate.Value.Arithmetic

/-!
The scoring rules of the three heuristics, over any arithmetic: over documents they run, over the
rationals they can be reasoned about. Weights and thresholds come in as they were configured; the
other cut-offs are fixed here.
-/
namespace DecisionGate
open Arithmetic

variable {α : Type} [Arithmetic α]

/-- The sum of a list, from the left. -/
def total (xs : List α) : Except Fault α := xs.foldlM add zero

/-- The sum of the products, from the left. -/
def weightedSum (parts : List (α × α)) : Except Fault α :=
  parts.foldlM (fun acc p => do add acc (← mul p.1 p.2)) zero

/-- Values and weights; zero when the weights sum to nothing. -/
def weightedMean (parts : List (α × α)) : Except Fault α := do
  let weight ← total (parts.map Prod.snd)
  if ← compare .le weight zero then .ok 0.0
  else div (← weightedSum parts) weight

inductive Priority where
  | low
  | medium
  | high
  deriving DecidableEq, Repr

inductive Confidence where
  | low
  | medium
  | high
  deriving DecidableEq, Repr

namespace BackCasting

inductive Recommendation where
  | defer
  | review
  | proceed
  deriving DecidableEq, Repr

structure Settings (α : Type) where
  endStateWeight : α
  marketWeight : α
  confidence : α
  priority : α

structure Outcome (α : Type) where
  score : α
  endStateContribution : α
  marketContribution : α
  priority : Priority
  confidence : Confidence
  recommendation : Recommendation
  fast : Bool

def priorityOf (threshold score : α) : Except Fault Priority := do
  if ← compare .ge score threshold then .ok .high
  else if ← compare .ge score (← mul threshold 0.625) then .ok .medium
  else .ok .low

def confidenceOf (threshold clarity : α) : Except Fault Confidence := do
  if ← compare .ge clarity threshold then .ok .high
  else if ← compare .ge clarity 0.5 then .ok .medium
  else .ok .low

def recommendationOf (threshold score : α) (confidence : Confidence) :
    Except Fault Recommendation := do
  let reached ← compare .ge score threshold
  if reached && confidence == .high then .ok .proceed
  else if ← compare .lt score 0.4 then .ok .defer
  else .ok .review

def assess (s : Settings α) (clarity alignment : α) : Except Fault (Outcome α) := do
  let endState ← mul clarity s.endStateWeight
  let market ← mul alignment s.marketWeight
  let score ← add endState market
  let priority ← priorityOf s.priority score
  let confidence ← confidenceOf s.confidence clarity
  let recommendation ← recommendationOf s.priority score confidence
  let fast ← compare .ge score s.confidence
  .ok { score, endStateContribution := endState, marketContribution := market, priority,
        confidence, recommendation, fast }

end BackCasting

namespace Coherence

inductive Recommendation where
  | reject
  | review
  | approve
  deriving DecidableEq, Repr

inductive Rank where
  | poor
  | acceptable
  | good
  | excellent
  deriving DecidableEq, Repr

inductive Factor where
  | highTruthfulness
  | goodFit
  | poorFit
  | strongSkills
  deriving DecidableEq, Repr

structure Settings (α : Type) where
  truthfulnessWeight : α
  systemWeight : α
  skillWeight : α
  veto : α
  approve : α
  review : α

structure Scan (α : Type) where
  score : α
  recommendation : Recommendation
  truthfulnessPart : α
  systemPart : α
  skillPart : α
  rank : Rank
  factors : List Factor

/-- A veto is independent of everything but the truthfulness. -/
inductive Outcome (α : Type) where
  | vetoed
  | scanned (s : Scan α)

def Outcome.score : Outcome α → α
  | .vetoed => 0.0
  | .scanned s => s.score

def Outcome.recommendation {α : Type} : Outcome α → Recommendation
  | .vetoed => .reject
  | .scanned s => s.recommendation

def recommendationOf (s : Settings α) (score : α) : Except Fault Recommendation := do
  if ← compare .ge score s.approve then .ok .approve
  else if ← compare .ge score s.review then .ok .review
  else .ok .reject

def rankOf (score : α) : Except Fault Rank := do
  if ← compare .ge score 0.9 then .ok .excellent
  else if ← compare .ge score 0.8 then .ok .good
  else if ← compare .ge score 0.6 then .ok .acceptable
  else .ok .poor

def factorsOf (truthfulness system skill : α) : Except Fault (List Factor) := do
  let truthful ← compare .ge truthfulness 0.9
  let fits ← compare .ge system 0.8
  let unfit ← if fits then .ok false else compare .lt system 0.5
  let skilled ← compare .ge skill 0.8
  .ok ((if truthful then [.highTruthfulness] else []) ++
    (if fits then [.goodFit] else if unfit then [.poorFit] else []) ++
    (if skilled then [.strongSkills] else []))

def assess (s : Settings α) (truthfulness system skill : α) : Except Fault (Outcome α) := do
  if ← compare .lt truthfulness s.veto then .ok .vetoed
  else
    let score ← weightedMean
      [(truthfulness, s.truthfulnessWeight), (system, s.systemWeight), (skill, s.skillWeight)]
    let recommendation ← recommendationOf s score
    let factors ← factorsOf truthfulness system skill
    let truthfulnessPart ← mul truthfulness s.truthfulnessWeight
    let systemPart ← mul system s.systemWeight
    let skillPart ← mul skill s.skillWeight
    let rank ← rankOf score
    .ok (.scanned
      { score, recommendation, truthfulnessPart, systemPart, skillPart, rank, factors })

end Coherence

namespace Automation

inductive Recommendation where
  | keepManual
  | addGuardrailsFirst
  | addGuardrails
  | standardizeFirst
  | planAutomation
  | automateNow
  deriving DecidableEq, Repr

inductive Effort where
  | weeks
  | month
  | months
  deriving DecidableEq, Repr

structure Settings (α : Type) where
  frequencyWeight : α
  standardizationWeight : α
  guardrailsWeight : α
  tippingPoint : α
  standardization : α
  automate : α

structure Check (α : Type) where
  score : α
  normalizedFrequency : α
  frequencyPart : α
  standardizablePart : α
  guardrailsPart : α
  recommendation : Recommendation
  ready : Bool
  tippingPoint : Bool
  effort : Effort
  annualSavings : α

/-- Missing guardrails are a veto whatever the frequency and the standardization. -/
inductive Outcome (α : Type) where
  | vetoed (tippingPoint : Bool)
  | checked (c : Check α)

def Outcome.score : Outcome α → α
  | .vetoed _ => 0.0
  | .checked c => c.score

def Outcome.recommendation {α : Type} : Outcome α → Recommendation
  | .vetoed _ => .addGuardrailsFirst
  | .checked c => c.recommendation

/-- The frequency in units of its saturation, at most one. -/
def normalize (frequency : α) : Except Fault α := do
  let x ← div frequency 20.0
  if ← compare .lt 1.0 x then .ok 1.0 else .ok x

def recommendationOf (s : Settings α) (score standardizable : α) (tippingPoint ready : Bool) :
    Except Fault Recommendation := do
  let automate ← compare .ge score s.automate
  if automate && ready then .ok .automateNow
  else
    let plan ← compare .ge score 0.5
    if plan && tippingPoint then .ok .planAutomation
    else if tippingPoint && !ready then
      if ← compare .lt standardizable s.standardization then .ok .standardizeFirst
      else .ok .addGuardrails
    else .ok .keepManual

def effortOf (standardizable : α) : Except Fault Effort := do
  if ← compare .ge standardizable 0.9 then .ok .weeks
  else if ← compare .ge standardizable 0.7 then .ok .month
  else .ok .months

def assess (s : Settings α) (frequency standardizable : α) (hasGuardrails : Bool) :
    Except Fault (Outcome α) := do
  let tippingPoint ← compare .gt frequency s.tippingPoint
  if !hasGuardrails then .ok (.vetoed tippingPoint)
  else
    let normalizedFrequency ← normalize frequency
    let score ← weightedMean
      [(normalizedFrequency, s.frequencyWeight), (standardizable, s.standardizationWeight),
       (1.0, s.guardrailsWeight)]
    let ready ← if tippingPoint then compare .ge standardizable s.standardization else .ok false
    let recommendation ← recommendationOf s score standardizable tippingPoint ready
    let effort ← effortOf standardizable
    let frequencyPart ← mul normalizedFrequency s.frequencyWeight
    let standardizablePart ← mul standardizable s.standardizationWeight
    let annualSavings ← mul frequency 12.0
    .ok (.checked
      { score, normalizedFrequency, frequencyPart, standardizablePart,
        guardrailsPart := s.guardrailsWeight, recommendation, ready, tippingPoint, effort,
        annualSavings })

end Automation

end DecisionGate
