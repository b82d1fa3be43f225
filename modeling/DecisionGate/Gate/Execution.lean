import DecisionGate.Belief.Validator
import DecisionGate.Gate.Checkpoint
import DecisionGate.Gate.Feedback
import DecisionGate.Gate.Flatten
import DecisionGate.Heuristic.Compiler

/-!
Running a checkpoint against a context. The target is run first; a veto stops the gate before any
criterion is looked at, otherwise every criterion has to pass. Mistakes in a definition and failures
of the library's own kinds become verdicts of error; all other failures are passed on.
-/
namespace DecisionGate

/-- A gate shares the compiler and the validator with whoever else uses them. A heuristic that was
prepared beforehand is not compiled. -/
structure Gate where
  compiler : Compiler := {}
  validator : Belief.Validator := {}
  vetoEnabled : Bool := true
  prepared : String → Option DecisionFunction := fun _ => none

namespace Gate

def component : String := "validation_gate"

/-- What a target produced, before any criterion. -/
structure Outcome where
  score : Option Float
  vetoes : List Veto := []
  metrics : Entries := []
  heuristic : Option String := none
  validator : Option String := none
  dimensions : Option (List (String × Float)) := none
  leastScore : Option Float := none
  missingFields : Option (List (String × List String)) := none

def truthfulnessVeto : Float := 0.7

/-- What is left to run through: nothing counts as no members. -/
def orEmpty (v : Value) : List Value ⊕ Value :=
  if v.isTruthy then
    match v with
    | .list xs => .inl xs
    | v => .inr v
  else .inl []

def refused (message field : String) : Failure := .input (.other message field)

/-- Whether a truthfulness is a number below the limit. -/
def isLow (truthfulness : Value) : Bool :=
  truthfulness.isNumber &&
    match truthfulness.number? with
    | some n => n.compare .lt (.float truthfulnessVeto)
    | none => false

/-- The name of an executor; one without a name counts its place. -/
def executorName (index : Nat) (executor : Entries) : Value :=
  let given := (executor.get? "name").getD .null
  if given.isTruthy then given else .str s!"Executor {index + 1}"

/-- The veto on an executor of a low truthfulness. Its name has to be a text. -/
def lowVeto (name truthfulness : Value) : Except Failure Veto := do
  let nameText ← shown name
  let found ← shown truthfulness
  let limit := Format.double truthfulnessVeto
  let message := s!"Executor \"{nameText}\" has truthfulness {found} < {limit} (VETO)"
  let build (executor : String) (value : Float) : Veto :=
    { kind := .truthfulness, message, executor := some executor, value := some value
      threshold := some truthfulnessVeto }
  (Schema.Checked.ap
    (((Schema.text name).under (.name "executor")).map build)
    ((Schema.number truthfulness).under (.name "value"))).mapError (Failure.schema "Veto")

def executorVeto (index : Nat) (executor : Entries) : Except Failure (Option Veto) :=
  let truthfulness := (executor.get? "truthfulness").getD .null
  if isLow truthfulness then (lowVeto (executorName index executor) truthfulness).map some
  else .ok none

def executorVetoes (context : Entries) : Except Failure (List Veto) :=
  match orEmpty ((context.get? "executors").getD .null) with
  | .inr _ => .error (refused "executors must be a list" "executors")
  | .inl executors => do
    let found ← executors.zipIdx.mapM fun (v, i) =>
      match v with
      | .map es => executorVeto i es
      | _ => .ok none
    .ok (found.filterMap id)

def hasGuardrails (context : Value) : Bool :=
  (Input.canonicalField automationAliases context "has_guardrails").isTruthy

def guardrailsVeto : Veto :=
  { kind := .guardrails, message := "Missing safety guardrails (VETO)"
    required := some "At least one guardrail must be defined before automation" }

/-- The vetoes that come with a heuristic besides its own decision. -/
def heuristicVetoes (id : String) (context : Entries) : Except Failure (List Veto) :=
  match Builtin.ofId? id with
  | some .coherenceScan => executorVetoes context
  | some .automationCheck => .ok (if hasGuardrails (.map context) then [] else [guardrailsVeto])
  | _ => .ok []

/-- What a call gives as a table of metrics. -/
def detailsOf : Answer → Entries
  | .decision d => d.toEntries
  | .value (.map es) => es
  | .value v => Entries.ofNames [("value", v)]

/-- The score among the details, when it is a number. -/
def detailScore (details : Entries) : Except Failure (Option Float) :=
  let v := (details.get? "score").getD .null
  match v.isNumber, v.number? with
  | true, some n => (liftFault n.toDouble).map some
  | _, _ => .ok none

/-- What a call of a compiled heuristic comes to; any failure of the call itself is an execution
failure. -/
def heuristicOutcome (f : DecisionFunction) (id : String) (context : Entries) :
    Except Failure Outcome := do
  let answer ← (f.call (.map context)).mapError (Failure.execution id)
  let details := detailsOf answer
  let vetoes ← heuristicVetoes id context
  let score ← detailScore details
  match flatFault? details with
  | some f => .error f
  | none => .ok { score, vetoes, metrics := flatten details, heuristic := some id }

inductive Check where
  | beliefs
  | tasks
  deriving DecidableEq, Repr

def Check.name : Check → String
  | .beliefs => "axiom-compliance"
  | .tasks => "task-anatomy"

/-- The names that the validators go by. -/
def checkTable : List (String × Check) :=
  [("axiom-compliance", .beliefs), ("axioma-validator", .beliefs), ("task-anatomy", .tasks)]

def defaultLeastDimension : Float := 6.0

/-- A dimension without a score has this one. -/
def defaultDimensionScore : Float := 7.0

def defaultDimensions : List String := dimensionTable.map Prod.fst

def defaultTaskFields : List String :=
  ["Name", "Description", "Status", "Assignee", "Due Date", "Dependencies", "Automation Trigger",
   "Validation Criteria"]

/-- The least score of a dimension: the checkpoint's own, that of its first floor, or the usual. -/
def leastDimension (c : Checkpoint) (criteria : List Criteria.Criterion) : Float :=
  match c.leastDimension with
  | some x => x
  | none =>
    match criteria.find? fun k => k.kind = .floor with
    | some floor => floor.threshold.getD defaultLeastDimension
    | none => defaultLeastDimension

def dimensionScore (provided : Entries) (dimension : String) : Except Failure Float :=
  match (provided.get? dimension).getD .null with
  | .null => .ok defaultDimensionScore
  | v =>
    match v.isNumber, v.number? with
    | true, some n => liftFault n.toDouble
    | _, _ => .error (refused s!"Score for {dimension} must be a number" dimension)

/-- The scores of the dimensions that are asked for, each once. -/
def providedDimensions (c : Checkpoint) (provided : Value) :
    Except Failure (List (String × Float)) := do
  let entries ← match provided with
    | .map es => .ok es
    | v =>
      if v.isTruthy then
        .error (refused "axiom_scores must be a mapping of dimension -> score" "axiom_scores")
      else .ok []
  let names := if c.dimensions.isEmpty then defaultDimensions else c.dimensions
  let scores ← names.mapM fun name => (dimensionScore entries name).map fun x => (name, x)
  .ok (scores.foldl (fun acc d => putNamed d.1 d.2 acc) [])

def dimensionVeto (least : Float) (d : String × Float) : Option Veto :=
  if d.2 < least then
    let found := Format.double d.2
    let limit := Format.double least
    some { kind := .lowDimension, dimension := some d.1, value := some d.2, threshold := some least
           message := s!"Dimension \"{d.1}\" scored {found} < {limit} (VETO)" }
  else none

def least? : List Float → Option Float
  | [] => none
  | x :: rest => some (rest.foldl (fun acc y => if y < acc then y else acc) x)

def mean (xs : List Float) : Float :=
  if xs.isEmpty then 0.0 else xs.foldl (· + ·) 0.0 / Float.ofNat xs.length

/-- The outcome of scores by dimension, with the vetoes found before them. -/
def dimensionOutcome (least : Float) (vetoes : List Veto) (dimensions : List (String × Float)) :
    Outcome :=
  let scores := dimensions.map Prod.snd
  let overall := mean scores
  let metrics := Entries.ofNames
    [("overall_score", .float overall), ("min_score", ofDouble? (least? scores))]
  { score := some overall
    vetoes := vetoes ++ dimensions.filterMap (dimensionVeto least)
    metrics := dimensions.foldl (fun acc d => acc.set (Criteria.toSnake d.1) (.float d.2)) metrics
    validator := some Check.beliefs.name
    dimensions := some dimensions
    leastScore := least? scores }

def beliefVeto (r : Belief.Result) : Veto :=
  match r.critical? with
  | some f => { kind := .belief, dimension := f.level.map Belief.Level.key, message := f.reason }
  | none => { kind := .belief, message := "Axiom veto applied" }

/-- Given scores come first; without them the content of the context is scored. -/
def runBeliefs (g : Gate) (c : Checkpoint) (criteria : List Criteria.Criterion)
    (context : Entries) : Report (Except Failure Outcome × Belief.Validator) := do
  let least := leastDimension c criteria
  let provided := match context.get? "axiom_scores" with
    | some v => v
    | none => (context.get? "axioma").getD .null
  match provided, context.get? "content" with
  | .null, some content => do
    let (r, validator) ← g.validator.validate content .null .null .null
    pure (r.map fun result =>
      let vetoes := if result.veto && g.vetoEnabled then [beliefVeto result] else []
      dimensionOutcome least vetoes (result.levels.map fun (l, s) => (l.key, s.score)), validator)
  | provided, _ =>
    pure ((providedDimensions c provided).map (dimensionOutcome least []), g.validator)

/-- Whether a task has a field, under its name or under its name in small letters. -/
def hasField (task : Entries) (field : String) : Bool :=
  let small := String.ofList (Text.lower field.toList)
  ((task.get? field).getD .null).isTruthy || ((task.get? small).getD .null).isTruthy

/-- The name of a task; one without a name counts its place. -/
def taskName (index : Nat) (task : Entries) : Value :=
  let names := [task.get? "name", task.get? "Name"].filterMap id
  (names.find? Value.isTruthy).getD (.str s!"Task {index + 1}")

/-- The name and the missing fields of a task that misses some. -/
def incomplete? (required : List String) (index : Nat) (v : Value) :
    Except Failure (Option (String × List String)) :=
  match v with
  | .map task =>
    let missing := required.filter fun field => !hasField task field
    if missing.isEmpty then .ok none
    else (shown (taskName index task)).map fun name => some (name, missing)
  | _ => .error (refused s!"Task {index + 1} must be a mapping" "tasks")

def taskVeto (task : String × List String) : Veto :=
  { kind := .missingFields, task := some task.1, missing := some task.2
    message := s!"Task \"{task.1}\" missing {task.2.length} required fields" }

/-- Ten points for a list of tasks that are all complete. -/
def taskScore (complete total : Nat) : Float :=
  if total = 0 then 0.0 else Float.ofNat complete / Float.ofNat total * 10.0

def runTasks (c : Checkpoint) (context : Entries) : Except Failure Outcome :=
  let required := if c.requiredFields.isEmpty then defaultTaskFields else c.requiredFields
  match orEmpty ((context.get? "tasks").getD .null) with
  | .inr _ => .error (refused "tasks must be a list" "tasks")
  | .inl tasks => do
    let found ← tasks.zipIdx.mapM fun (v, i) => incomplete? required i v
    let broken := found.filterMap id
    let complete := tasks.length - broken.length
    .ok { score := some (taskScore complete tasks.length)
          vetoes := broken.map taskVeto
          metrics := Entries.ofNames
            [("total_tasks", .int tasks.length), ("compliant_tasks", .int complete),
             ("task_anatomy_fields", .bool broken.isEmpty)]
          validator := some Check.tasks.name
          missingFields := some (broken.foldl (fun acc t => putNamed t.1 t.2 acc) []) }

def isLevelWord (word : List Char) : Bool :=
  Text.startsWith word "level".toList || Text.startsWith word "dimension".toList

/-- Whether a criterion asks for the least score. -/
def asksLeast (c : Criteria.Criterion) : Bool :=
  c.kind = .floor || (Text.split '_' c.field.toList).any isLevelWord

/-- The value that is found for a criterion: a score, a part of the context, or a metric. -/
def resolve? (o : Outcome) (context : Entries) (c : Criteria.Criterion) : Option Value :=
  if asksLeast c then o.leastScore.map .float
  else if c.field = "overall_score" || c.field = "score" then o.score.map .float
  else
    match (flatten context).get? c.field with
    | some v => some v
    | none => o.metrics.get? c.field

def criterionMessage (c : Criteria.Criterion) (found : Option Value) (passed : Bool) :
    Except Failure String :=
  match found with
  | none => .ok s!"{c.field}: no value found in context or results"
  | some actual =>
    if c.kind = .presence then
      .ok (if passed then s!"{c.field}: present" else s!"{c.field}: missing")
    else (shown actual).map fun text => s!"{c.field}: {text} (expected {c.expected})"

def evaluate (o : Outcome) (context : Entries) (c : Criteria.Criterion) :
    Except Failure CriterionResult := do
  let found := resolve? o context c
  let passed ← match found with
    | some actual => liftFault (c.compare actual)
    | none => .ok false
  let message ← criterionMessage c found passed
  .ok { criterion := c.label, field := c.field, passed, actual := found.getD .null
        expected := c.expected, message := some message }

def verdictOf (c : Checkpoint) (o : Outcome) (passed : Bool) : Verdict :=
  { gate := c.name, passed, heuristic := o.heuristic, validator := o.validator, score := o.score
    leastScore := o.leastScore, dimensions := o.dimensions, missingFields := o.missingFields }

def vetoVerdict (c : Checkpoint) (o : Outcome) : Verdict :=
  let v :=
    { verdictOf c o false with
      veto := true, vetoes := o.vetoes, severity := some .critical
      recommendation := some .fixRequired }
  { v with feedback := some v.vetoText }

def passedVerdict (c : Checkpoint) (o : Outcome) (results : List CriterionResult) : Verdict :=
  let v := { verdictOf c o true with criteria := results }
  { v with message := some v.successText }

def failedVerdict (c : Checkpoint) (o : Outcome) (results : List CriterionResult) : Verdict :=
  let v :=
    { verdictOf c o false with
      criteria := results, severity := some .major, recommendation := some .reviewAndFix }
  { v with feedback := some (v.failureText c.hints) }

/-- The feedback on failed criteria shows what was found for each of them. -/
def criteriaVerdict (c : Checkpoint) (o : Outcome) (results : List CriterionResult) :
    Except Failure Verdict :=
  if results.all CriterionResult.passed then .ok (passedVerdict c o results)
  else if results.all fun r => r.passed || r.actual.hasText then .ok (failedVerdict c o results)
  else .error (.fault .integerTooLong)

def skippedVerdict (name : String) : Verdict :=
  { gate := name, passed := true, skipped := true
    message := some "No validation configured for this phase" }

/-- An unreadable definition is reported by its first problem. -/
def errorMessage : Failure → String
  | .schema _ (p :: _) => "Invalid checkpoint definition: " ++ p.message
  | f => f.message

def errorVerdict (name : String) (f : Failure) : Report Verdict := do
  noteError component "gate_execution_failed"
  pure { gate := name, passed := false, error := true, severity := some .critical
         recommendation := some .checkConfiguration, message := some (errorMessage f) }

def noteVeto (c : Checkpoint) (o : Outcome) : Report Unit := do
  note (.fallback "gate_veto_triggered" (Entries.ofNames
    [("component", .str component), ("checkpoint", .str c.name),
     ("vetoes", Value.ofTexts (o.vetoes.map fun v => v.kind.text))]))
  noteWarning component "gate_veto_triggered"

/-- The verdict on an outcome: its vetoes if there are any, else its criteria. -/
def judge (c : Checkpoint) (criteria : List Criteria.Criterion) (context : Entries)
    (o : Outcome) : Report (Except Failure Verdict) :=
  if o.vetoes.isEmpty then
    pure ((criteria.mapM (evaluate o context)).bind (criteriaVerdict c o))
  else do
    noteVeto c o
    pure (.ok (vetoVerdict c o))

/-- The function of a heuristic: the prepared one, or the compiler's. -/
def function (g : Gate) (id : String) : Report (Except Failure DecisionFunction × Gate) :=
  match g.prepared id with
  | some f => pure (.ok f, g)
  | none => do
    let (r, compiler) ← g.compiler.compile id .null
    pure (r, { g with compiler })

def runTarget (g : Gate) (c : Checkpoint) (criteria : List Criteria.Criterion)
    (context : Entries) : Report (Except Failure Outcome × Gate) :=
  match c.target with
  | .heuristic id => do
    let (f, g) ← g.function id
    pure (f.bind fun f => heuristicOutcome f id context, g)
  | .validator name =>
    match checkTable.lookup name with
    | none => pure (.error (.unknownValidator name), g)
    | some .tasks => pure (runTasks c context, g)
    | some .beliefs => do
      let (r, validator) ← g.runBeliefs c criteria context
      pure (r, { g with validator })

/-- The criteria and the context of a run. -/
def prepare (c : Checkpoint) (context : Value) :
    Except Failure (List Criteria.Criterion × Entries) :=
  match context with
  | .map es =>
    if c.criteria.all Criteria.Item.isReportable then
      match Criteria.parseAll c.criteria with
      | .ok criteria => .ok (criteria, es)
      | .error ps => .error (.criteria ps)
    else .error (.fault .integerTooLong)
  | _ => .error (refused "Gate context must be a mapping" "context")

def runCheckpoint (g : Gate) (c : Checkpoint) (context : Value) :
    Report (Except Failure Verdict × Gate) :=
  match prepare c context with
  | .error f => pure (.error f, g)
  | .ok (criteria, es) => do
    let (r, g) ← g.runTarget c criteria es
    match r with
    | .error f => pure (.error f, g)
    | .ok o => do
      let v ← judge c criteria es o
      pure (v, g)

/-- Ends a run. A failure that is not the library's own is passed on and leaves the timer running;
so does a criterion that cannot be compared. -/
def conclude (c : Checkpoint) (r : Except Failure Verdict) : Report (Except Failure Verdict) :=
  match r with
  | .ok v => do
    note (.ended component)
    noteInfo component "gate_completed"
    pure (.ok v)
  | .error f =>
    if f.isDomain then do
      note (.ended component)
      let v ← errorVerdict c.name f
      pure (.ok v)
    else pure (.error f)

/-- Runs the checkpoint of a definition against a context; null counts as the empty context. -/
def execute (g : Gate) (d : Definition) (context : Value) :
    Report (Except Failure Verdict × Gate) :=
  match d.read with
  | .error f =>
    match d.fallbackName with
    | .error f => pure (.error f, g)
    | .ok name => do
      let v ← errorVerdict name f
      pure (.ok v, g)
  | .ok ⟨name, none⟩ => pure (.ok (skippedVerdict name), g)
  | .ok ⟨_, some c⟩ => do
    let context := match context with
      | .null => .map []
      | v => v
    note (.started component)
    noteInfo component "gate_started"
    let (r, g) ← g.runCheckpoint c context
    let v ← conclude c r
    pure (v, g)

end Gate

end DecisionGate
