import DecisionGate.Belief.Scoring
import DecisionGate.Failure
import DecisionGate.Telemetry.Note

/-!
Validation of content against the levels that are asked for, and the bounded history of what was
validated. Each level is scored on its own; the overall score is their mean. A validation that fails
leaves the history as it was.
-/
namespace DecisionGate.Belief

inductive Recommendation where
  | approve
  | review
  | rejectLowScore
  | rejectVeto
  deriving DecidableEq, Repr

def Recommendation.text : Recommendation → String
  | .approve => "APPROVE"
  | .review => "REVIEW"
  | .rejectLowScore => "REJECT_LOW_SCORE"
  | .rejectVeto => "REJECT_VETO"

structure Result where
  overall : Float
  levels : List (Level × LevelScore)
  recommendation : Recommendation

namespace Result

def veto (r : Result) : Bool := r.levels.any fun p => p.2.veto

/-- The findings of all levels, each with its level. -/
def violations (r : Result) : List Finding :=
  r.levels.flatMap fun (l, s) => s.violations.map fun f => { f with level := some l }

def strengths (r : Result) : List Finding :=
  r.levels.flatMap fun (l, s) => s.strengths.map fun f => { f with level := some l }

def critical? (r : Result) : Option Finding :=
  r.violations.find? fun f => f.severity == some .critical

end Result

/-- A level by its name in any case, or by a number that equals its code. -/
def Level.ofValue (v : Value) : Except Failure Level :=
  match v with
  | .str s =>
    let name := String.ofList (Text.upper (Text.trim s.toList))
    match Level.all.find? fun l => l.name == name with
    | some l => .ok l
    | none => .error (.badValue s!"Unknown axiom level: {s}")
  | v =>
    let equals (l : Level) : Bool :=
      match v.number? with
      | some n => n.order (.int l.code) == some .eq
      | none => false
    match Level.all.find? equals with
    | some l => .ok l
    | none => .error (.badValue s!"{v.quoted} is not a valid AxiomLevel")

/-- The levels that are asked for; null asks for all. -/
def requested (levels : Value) : Except Failure (List Level) :=
  match levels with
  | .null => .ok Level.all
  | v => do (← v.members).mapM Level.ofValue

/-- The scores of some levels, from the deepest up, each level once. -/
def scoreLevels (levels : List Level) (content : String) : List (Level × LevelScore) :=
  (Level.all.filter fun l => levels.contains l).map fun l => (l, scoreLevel (spec l) content)

def overallOf (scores : List (Level × LevelScore)) : Float :=
  if scores.isEmpty then 0.0
  else (scores.foldl (fun acc p => acc + p.2.score) 0.0) / Float.ofNat scores.length

def recommend (overall : Float) (veto : Bool) (minimum : Value) (strict : Bool) :
    Except Fault Recommendation := do
  if veto && strict then .ok .rejectVeto
  else if ← Value.compare .ge (.float overall) minimum then .ok .approve
  else
    let lower ← minimum.mul (.float 0.8)
    if ← Value.compare .ge (.float overall) lower then .ok .review
    else .ok .rejectLowScore

/-- The result for a text. -/
def score (text : String) (levels : List Level) (minimum : Value) (strict : Bool) :
    Except Fault Result := do
  let scores := scoreLevels levels (lowered text)
  let overall := overallOf scores
  let recommendation ← recommend overall (scores.any fun p => p.2.veto) minimum strict
  .ok { overall, levels := scores, recommendation }

structure HistoryEntry where
  content : String
  result : Result

structure Validator where
  limit : Nat := 100
  minimum : Value := .float 7.0
  strict : Bool := false
  history : List HistoryEntry := []

namespace Validator

def component : String := "axiom_validator"

/-- How much of a content the history keeps. -/
def snippetLength : Nat := 200

def snippet (text : String) : String := String.ofList (text.toList.take snippetLength)

/-- The newest entries stay. -/
def remember (v : Validator) (e : HistoryEntry) : Validator :=
  { v with history := Telemetry.lastOf v.limit (v.history ++ [e]) }

def noteVeto (r : Result) : Report Unit := do
  let critical := r.critical?
  note (.fallback "validation_veto_triggered" (Entries.ofNames
    [("component", .str component), ("overall_score", .float r.overall),
     ("veto_reason", Value.ofText? (critical.map Finding.reason)),
     ("veto_level", Value.ofText? ((critical.bind Finding.level).map Level.key))]))
  noteWarning component "validation_veto_triggered"

/-- Scores a content against the levels of a request. A minimum or a strictness that is not given is
the validator's own. A content that cannot be written has no text to score. -/
def validate (v : Validator) (content levels minimum strict : Value) :
    Report (Except Failure Result × Validator) :=
  let minimum := if minimum.isNull then v.minimum else minimum
  let strict := if strict.isNull then v.strict else strict.isTruthy
  match requested levels with
  | .error e => pure (.error e, v)
  | .ok levels =>
    match written content with
    | .error f => pure (.error f, v)
    | .ok text => do
      note (.started "axiom_validation")
      match score text levels minimum strict with
      | .error f => pure (.error (.fault f), v)
      | .ok r => do
        note (.ended "axiom_validation")
        noteInfo component "validation_completed"
        if r.veto then noteVeto r
        pure (.ok r, v.remember ⟨snippet text, r⟩)

/-- What a validation comes to, apart from what it reports. -/
theorem validate_value (v : Validator) (content levels minimum strict : Value) :
    (v.validate content levels minimum strict).value =
      match requested levels with
      | .error f => (.error f, v)
      | .ok ls =>
        match written content with
        | .error f => (.error f, v)
        | .ok text =>
          match score text ls (if minimum.isNull then v.minimum else minimum)
              (if strict.isNull then v.strict else strict.isTruthy) with
          | .error f => (.error (.fault f), v)
          | .ok r => (.ok r, v.remember ⟨snippet text, r⟩) := by
  unfold validate
  cases requested levels with
  | error f => rfl
  | ok ls =>
    simp only
    cases written content with
    | error f => rfl
    | ok text =>
      simp only [Report.value_bind]
      split
      · rfl
      · simp only [Report.value_bind]
        split <;> rfl

/-- The most recent entries, oldest first. -/
def recent (v : Validator) (n : Int) : List HistoryEntry :=
  if n ≤ 0 then [] else Telemetry.lastOf n.toNat v.history

def clear (v : Validator) : Validator := { v with history := [] }

end Validator

def Finding.toValue (f : Finding) : Value :=
  Value.ofNames
    [("axiom", .str f.belief), ("reason", .str f.reason),
     ("level", Value.ofText? (f.level.map Level.key)),
     ("severity", Value.ofText? (f.severity.map Severity.text)),
     ("score_impact", Value.ofText? f.impact)]

def LevelScore.toValue (s : LevelScore) : Value :=
  Value.ofNames
    [("score", .float s.score), ("violations", .list (s.violations.map Finding.toValue)),
     ("strengths", .list (s.strengths.map Finding.toValue)), ("veto", .bool s.veto),
     ("veto_reason", Value.ofText? s.vetoReason)]

def Result.toEntries (r : Result) : List (String × Value) :=
  [("overall_score", .float r.overall),
   ("level_scores", Value.ofNames (r.levels.map fun (l, s) => (l.key, s.toValue))),
   ("violations", .list (r.violations.map Finding.toValue)),
   ("strengths", .list (r.strengths.map Finding.toValue)),
   ("recommendation", .str r.recommendation.text), ("veto", .bool r.veto)]

def levelText (f : Finding) : String := ((f.level.map Level.key).getD "None")

/-- A summary in plain text. -/
def Result.report (r : Result) : String :=
  let one := Format.fixedDouble 1
  let head :=
    ["=== AXIOM VALIDATION REPORT ===", "", s!"Overall Score: {one r.overall}/10.0",
     s!"Recommendation: {r.recommendation.text}"] ++
    (if r.veto then ["VETO APPLIED - Critical coherence violation detected"] else []) ++
    ["", "--- Level Scores ---"]
  let scores := r.levels.map fun (l, s) => s!"  {l.name}: {one s.score}/10.0"
  let strengths := r.strengths.map fun f =>
    let impact := f.impact.getD "None"
    s!"  + [{levelText f}] {f.reason} ({impact})"
  let violations := r.violations.map fun f =>
    let severity := (f.severity.map Severity.text).getD "INFO"
    s!"  {severity}: [{levelText f}] {f.reason}"
  let block (title : String) (rows : List String) : List String :=
    if rows.isEmpty then [] else title :: rows ++ [""]
  let rows := head ++ scores ++ [""] ++ block "--- Strengths ---" strengths ++
    block "--- Violations ---" violations ++ [String.ofList (List.replicate 31 '=')]
  "\n".intercalate rows ++ "\n"

end DecisionGate.Belief
