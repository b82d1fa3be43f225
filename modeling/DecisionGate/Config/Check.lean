import DecisionGate.Config.Defaults
import DecisionGate.Value.Text

/-!
Checking a configuration. All problems of a document are collected in one pass, in the order of the
document's parts; only a document without heuristics ends it early. A check can itself fail: at an
integer that is too large to be compared with a sum of doubles, or too long to be shown in a
message.
-/
namespace DecisionGate.Config

inductive Problem where
  | notDocument
  | versionMissing
  | versionNotText
  | heuristicsMissing
  | heuristicsNotMapping
  | heuristicMissing (b : Builtin)
  | sectionNotMapping (b : Builtin)
  | groupMissing (b : Builtin) (g : Group)
  | groupNotMapping (b : Builtin) (g : Group)
  | notNumber (b : Builtin) (g : Group) (key : Key) (value : Value)
  | negativeWeight (b : Builtin) (key : Key) (value : Value)
  | badTippingPoint (b : Builtin) (key : Key) (value : Value)
  | thresholdOutOfRange (b : Builtin) (key : Key) (value : Value)
  | weightSum (total : Float)
  | reviewNotBelowApprove (review approve : Value)
  | standardizationAboveAutomate (standardization automate : Value)
  | validationNotMapping
  | strictModeNotFlag
  | minimumNotNumber
  | minimumOutOfRange
  | enableVetoNotFlag

def Problem.message : Problem → String
  | .notDocument => "Configuration object is required"
  | .versionMissing => "Missing required field: version"
  | .versionNotText => "version: Must be a string (e.g., \"1.0\")"
  | .heuristicsMissing => "Missing required field: heuristics"
  | .heuristicsNotMapping => "heuristics: Must be a mapping of heuristic id to settings"
  | .heuristicMissing b => s!"Missing required heuristic: {b.id}"
  | .sectionNotMapping b => s!"{b.id}: Must be a mapping with weights and thresholds"
  | .groupMissing b g => s!"{b.id}: Missing {g.name} section"
  | .groupNotMapping b g => s!"{b.id}.{g.name}: Must be a mapping"
  | .notNumber b g key v => s!"{b.id}.{g.name}.{key.text}: Must be a number (got {v.kindName})"
  | .negativeWeight b key v => s!"{b.id}.weights.{key.text}: Cannot be negative (got {v.text})"
  | .badTippingPoint b key v =>
    s!"{b.id}.thresholds.{key.text}: Must be integer ≥ 1 (got {v.text})"
  | .thresholdOutOfRange b key v =>
    s!"{b.id}.thresholds.{key.text}: Must be between 0 and 1 (got {v.text})"
  | .weightSum total =>
    let b := Builtin.backCasting
    s!"{b.id}.weights: Sum should equal 1.0 for proper weighting " ++
      s!"(got {Format.fixedDouble 2 total})"
  | .reviewNotBelowApprove review approve =>
    let b := Builtin.coherenceScan
    s!"{b.id}.thresholds: review ({review.text}) must be < approve ({approve.text})"
  | .standardizationAboveAutomate standardization automate =>
    let b := Builtin.automationCheck
    s!"{b.id}.thresholds: standardization ({standardization.text}) " ++
      s!"should be ≤ automate ({automate.text})"
  | .validationNotMapping => "validation: Must be a mapping"
  | .strictModeNotFlag => "validation.strict_mode: Must be boolean (true/false)"
  | .minimumNotNumber => "validation.minimum_score: Must be number"
  | .minimumOutOfRange => "validation.minimum_score: Must be between 0 and 10 (axiom scale)"
  | .enableVetoNotFlag => "validation.enable_veto: Must be boolean (true/false)"

/-- Whether every number that the message of a problem shows has a text. -/
def Problem.isWritable : Problem → Bool
  | .notNumber _ _ key _ => key.hasText
  | .negativeWeight _ key v => key.hasText && v.hasText
  | .badTippingPoint _ key v => key.hasText && v.hasText
  | .thresholdOutOfRange _ key v => key.hasText && v.hasText
  | .reviewNotBelowApprove v w => v.hasText && w.hasText
  | .standardizationAboveAutomate v w => v.hasText && w.hasText
  | _ => true

/-- A problem is noted together with its message. -/
def noted (p : Problem) : Except Fault (Option Problem) :=
  if p.isWritable then .ok (some p) else .error .integerTooLong

/-- A number that is no truth value. -/
def number? : Value → Option Number
  | .int i => some (.int i)
  | .float x => some (.float x)
  | _ => none

def checkVersion : Value → List Problem
  | .null => [.versionMissing]
  | .str "" => [.versionMissing]
  | .str _ => []
  | _ => [.versionNotText]

def checkWeight (b : Builtin) (key : Key) (v : Value) : Except Fault (Option Problem) :=
  match number? v with
  | none => noted (.notNumber b .weights key v)
  | some n => if n.compare .lt (.int 0) then noted (.negativeWeight b key v) else .ok none

/-- Only the tipping point counts repetitions; every other threshold is a ratio. -/
def checkThreshold (b : Builtin) (key : Key) (v : Value) : Except Fault (Option Problem) :=
  match number? v with
  | none => noted (.notNumber b .thresholds key v)
  | some n =>
    if key.sameAs (.str "tipping_point") then
      if n.compare .lt (.int 1) then noted (.badTippingPoint b key v)
      else do
        let x ← n.toDouble
        if Double.isIntegral x then .ok none else noted (.badTippingPoint b key v)
    else if n.compare .lt (.int 0) || n.compare .gt (.int 1) then
      noted (.thresholdOutOfRange b key v)
    else .ok none

/-- The entries of a group that is there, or what is wrong with it. -/
def checkGroup (b : Builtin) (g : Group) (v : Value) : Except Problem Entries :=
  if !v.isTruthy then .error (.groupMissing b g)
  else
    match v with
    | .map es => .ok es
    | _ => .error (.groupNotMapping b g)

/-- Checks each entry of a group. -/
def checkEach (b : Builtin) (g : Group)
    (check : Builtin → Key → Value → Except Fault (Option Problem)) (v : Value) :
    Except Fault (List Problem) :=
  match checkGroup b g v with
  | .error p => .ok [p]
  | .ok es => do
    let found ← es.mapM fun (k, x) => check b k x
    .ok (found.filterMap id)

def checkSection (heuristics : Entries) (b : Builtin) : Except Fault (List Problem) :=
  let v := (heuristics.get? b.id).getD .null
  if !v.isTruthy then .ok [.heuristicMissing b]
  else
    match v with
    | .map _ => do
      let weights ← checkEach b .weights checkWeight (v.field Group.weights.name)
      let thresholds ← checkEach b .thresholds checkThreshold (v.field Group.thresholds.name)
      .ok (weights ++ thresholds)
    | _ => .ok [.sectionNotMapping b]

/-- The group of a heuristic if it is a mapping. -/
def groupOf? (heuristics : Entries) (b : Builtin) (g : Group) : Option Entries :=
  (((heuristics.get? b.id).getD .null).field g.name).entries?

/-- How far the weights may be from one. -/
def tolerance : Float := 0.01

/-- An absent weight counts as nothing; the rule rests when a weight is no number. -/
def checkWeightSum (heuristics : Entries) : Except Fault (List Problem) :=
  match groupOf? heuristics .backCasting .weights with
  | none => .ok []
  | some es =>
    let weight (name : String) : Option Number := number? ((es.get? name).getD (.int 0))
    match weight "end_state_vision", weight "current_market_signals" with
    | some a, some b => do
      let total ← a.add b
      let x ← match total.number? with
        | some n => n.toDouble
        | none => .ok 0.0
      .ok (if (x - 1.0).abs > tolerance then [.weightSum x] else [])
    | _, _ => .ok []

/-- A rule between two thresholds, which rests when one of them is no number. -/
def checkOrder (heuristics : Entries) (b : Builtin) (first second : String)
    (broken : Comparison) (problem : Value → Value → Problem) : Except Fault (Option Problem) :=
  match groupOf? heuristics b .thresholds with
  | none => .ok none
  | some es =>
    let v := (es.get? first).getD .null
    let w := (es.get? second).getD .null
    match number? v, number? w with
    | some m, some n => if m.compare broken n then noted (problem v w) else .ok none
    | _, _ => .ok none

def checkSpecifics (heuristics : Entries) : Except Fault (List Problem) := do
  let sums ← checkWeightSum heuristics
  let review ←
    checkOrder heuristics .coherenceScan "review" "approve" .ge .reviewNotBelowApprove
  let standardization ←
    checkOrder heuristics .automationCheck "standardization" "automate" .gt
      .standardizationAboveAutomate
  .ok (sums ++ review.toList ++ standardization.toList)

def checkFlag (v : Value) (problem : Problem) : List Problem :=
  match v with
  | .null => []
  | .bool _ => []
  | _ => [problem]

def checkMinimum (v : Value) : List Problem :=
  match v with
  | .null => []
  | v =>
    match number? v with
    | none => [.minimumNotNumber]
    | some n =>
      if n.compare .lt (.int 0) || n.compare .gt (.int 10) then [.minimumOutOfRange] else []

def checkValidation (v : Value) : List Problem :=
  match v with
  | .null => []
  | .map _ =>
    checkFlag (v.field "strict_mode") .strictModeNotFlag ++
      checkMinimum (v.field "minimum_score") ++
      checkFlag (v.field "enable_veto") .enableVetoNotFlag
  | _ => [.validationNotMapping]

/-- The problems of a document that is a mapping. -/
def checkEntries (config : Entries) : Except Fault (List Problem) :=
  let get (name : String) : Value := (config.get? name).getD .null
  let version := checkVersion (get "version")
  if !(get "heuristics").isTruthy then .ok (version ++ [.heuristicsMissing])
  else
    match get "heuristics" with
    | .map hs => do
      let sections ← Builtin.all.mapM (checkSection hs)
      let specifics ← checkSpecifics hs
      .ok (version ++ sections.flatten ++ specifics ++ checkValidation (get "validation"))
    | _ => .ok (version ++ [.heuristicsNotMapping])

/-- All problems of a document; none when it can be used. -/
def check (config : Value) : Except Fault (List Problem) :=
  match config with
  | .map es => if es.isEmpty then .ok [.notDocument] else checkEntries es
  | _ => .ok [.notDocument]

/-- The problems as a numbered list. -/
def reportText (messages : List String) : String :=
  if messages.isEmpty then "Configuration is valid"
  else
    let rows := messages.zipIdx.map fun (m, i) => s!"  {i + 1}. {m}"
    "\n".intercalate (s!"Configuration validation failed with {messages.length} error(s):" :: rows)

end DecisionGate.Config
