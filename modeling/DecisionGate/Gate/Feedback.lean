import DecisionGate.Failure
import DecisionGate.Gate.Verdict
import DecisionGate.Text.Case

/-!
Feedback on a verdict in plain text, for the person who has to act on it: what failed, how to mend
it and where it is documented.
-/
namespace DecisionGate.Gate

/-- A piece of advice with its points. -/
structure Advice where
  title : String
  points : List String
  deriving DecidableEq, Repr

/-- Where a heuristic or a validator is documented; its page is of the given sort. -/
structure Documentation where
  description : String
  sort : String
  page : String
  guide : String
  deriving DecidableEq, Repr

def docsBase : String := "docs/hybridops"

def documentationTable : List (String × Documentation) :=
  [("PV_BS_001",
    ⟨"Future System Back-Casting (Strategic Alignment)", "Heuristic",
     "/heuristics/PV_BS_001-future-back-casting.md", "/guides/strategic-alignment-guide.md"⟩),
   ("PV_PA_001",
    ⟨"Systemic Coherence Scan (Executor Truthfulness)", "Heuristic",
     "/heuristics/PV_PA_001-coherence-scan.md", "/guides/executor-coherence-guide.md"⟩),
   ("PV_PM_001",
    ⟨"Automation Tipping Point Assessment", "Heuristic",
     "/heuristics/PV_PM_001-automation-tipping-point.md",
     "/guides/automation-readiness-guide.md"⟩),
   ("axiom-compliance",
    ⟨"Axiom Compliance Quality Framework", "Validator", "/validators/axiom-validator.md",
     "/guides/axiom-compliance-guide.md"⟩),
   ("task-anatomy",
    ⟨"Task Anatomy Field Structure", "Validator", "/validators/task-anatomy-validator.md",
     "/guides/task-anatomy-guide.md"⟩)]

def checkpointTable : List (String × String) :=
  [("strategic-alignment", "Strategic Alignment Checkpoint"),
   ("coherence-scan", "Coherence Scan Checkpoint"),
   ("automation-readiness", "Automation Readiness Checkpoint"),
   ("axiom-compliance", "Axiom Compliance Checkpoint"),
   ("task-anatomy-check", "Task Anatomy Checkpoint")]

def dimensionTable : List (String × String) :=
  [("Truthfulness", "Improve data accuracy and executor honesty assessment"),
   ("Coherence", "Align system components and team understanding"),
   ("Strategic Alignment", "Clarify long-term vision and priorities"),
   ("Operational Excellence", "Standardize processes and improve efficiency"),
   ("Innovation Capacity", "Foster creativity and experimentation"),
   ("Risk Management", "Identify and mitigate potential risks"),
   ("Resource Optimization", "Improve resource allocation and utilization"),
   ("Stakeholder Value", "Enhance value delivery to stakeholders"),
   ("Sustainability", "Ensure long-term viability and maintenance"),
   ("Adaptability", "Increase system flexibility and resilience")]

/-- The target that a checkpoint of a known name stands for. -/
def targetTable : List (String × String) :=
  [("strategic-alignment", "PV_BS_001"), ("coherence-scan", "PV_PA_001"),
   ("automation-readiness", "PV_PM_001"), ("axiom-compliance", "axiom-compliance"),
   ("task-anatomy-check", "task-anatomy")]

def adviceTable : List (String × List Advice) :=
  [("PV_BS_001",
    [⟨"Clarify end-state vision and long-term goals",
      ["What does success look like in 3-5 years?",
       "Document strategic architecture explicitly"]⟩,
     ⟨"Improve strategic priority alignment",
      ["Reassess market signals against the vision",
       "Prioritize strategic value over tactical urgency"]⟩,
     ⟨"Re-evaluate recommendation criteria",
      ["If DEFER: clarify why strategic fit is weak", "Document strategic assumptions"]⟩]),
   ("PV_PA_001",
    [⟨"Address executor coherence issues",
      ["Replace executors with low truthfulness (<0.7)",
       "Re-assess system alignment and understanding"]⟩,
     ⟨"Improve primary executor weighted coherence",
      ["Validate the executor's alignment with goals", "Consider pairing with a mentor"]⟩,
     ⟨"Document and address concerns",
      ["Record specific coherence gaps",
       "Request a manual override with justification if needed"]⟩]),
   ("PV_PM_001",
    [⟨"Increase task frequency to reach the tipping point",
      ["Wait for sufficient volume before automating",
       "Consider batching or scheduling changes"]⟩,
     ⟨"Add safety guardrails (REQUIRED)",
      ["Define error handling procedures", "Establish rollback mechanisms"]⟩,
     ⟨"Improve process standardization",
      ["Reduce variability in execution", "Document standard operating procedures"]⟩]),
   ("task-anatomy",
    [⟨"Review Task Anatomy requirements",
      ["Every required field must be filled before task creation"]⟩,
     ⟨"Validate automation decisions",
      ["Ensure automation flags align with the automation readiness results",
       "Verify guardrails for automated tasks"]⟩])]

/-- The advice for everything that has none of its own. -/
def generalAdvice : List Advice :=
  [⟨"Review failed criteria listed above",
    ["Address each specific failure point", "Update phase outputs to meet requirements"]⟩,
   ⟨"Consult validation documentation", ["Review the checkpoint criteria definition"]⟩,
   ⟨"Request team review if needed", ["Document decisions and trade-offs"]⟩]

/-- Dimensions that score lower are pointed out. -/
def reviewScore : Float := 7.0

/-- At most so many dimensions are pointed out. -/
def shownDimensions : Nat := 3

/-- The words of a checkpoint's name, each with a capital. -/
def checkpointTitle (name : String) : String :=
  let words := (name.toList.map fun c => if c = '_' then '-' else c) |> Text.split '-'
  let words := words.filter fun w => !w.isEmpty
  " ".intercalate (words.map fun w => String.ofList (Text.capitalize w))

def dimensionAdvice (dimension : String) : String :=
  (dimensionTable.lookup dimension).getD "Review dimension definition and improvement strategies"

def twoPlaces (x : Float) : String := Format.fixedDouble 2 x

def twoPlaces? (x : Option Float) : String := (x.map twoPlaces).getD "n/a"

def orNone (s : Option String) : String := s.getD "None"

def double? (x : Option Float) : String := orNone (x.map Format.double)

def commaList (names : List String) : String := ", ".intercalate names

def rule : String := String.ofList (List.replicate 80 '=')

/-- A point of a numbered row. -/
def point (s : String) : String := "      - " ++ s

def adviceLines (number : Nat) (a : Advice) : List String :=
  s!"   {number}. {a.title}" :: a.points.map point

/-- Pieces of advice with their numbers and a blank line between two. -/
def numbered (advice : List Advice) : List String :=
  advice.zipIdx.flatMap fun (a, i) => (if i = 0 then [] else [""]) ++ adviceLines (i + 1) a

def Veto.advice (v : Veto) : Advice :=
  match v.kind with
  | .truthfulness =>
    ⟨s!"Replace executor \"{orNone v.executor}\" with higher truthfulness",
     [s!"Current: {twoPlaces? v.value}, Required: >={double? v.threshold}",
      "Action: Re-evaluate executor selection or provide additional training"]⟩
  | .guardrails =>
    ⟨"Define safety guardrails before automation",
     ["Add error handling procedures", "Create validation checkpoints",
      "Establish rollback mechanisms", "Document edge cases and failure modes"]⟩
  | .lowDimension =>
    let dimension := v.dimension.getD ""
    ⟨s!"Improve dimension \"{orNone v.dimension}\"",
     [s!"Current score: {twoPlaces? v.value}/10.0",
      s!"Required minimum: {double? v.threshold}/10.0",
      s!"Action: {dimensionAdvice dimension}"]⟩
  | .missingFields =>
    let fields := v.missing.getD []
    ⟨s!"Complete Task Anatomy for \"{orNone v.task}\"",
     [s!"Missing fields: {commaList fields}",
      "Review Task Anatomy documentation for field definitions"]⟩
  | .belief =>
    ⟨s!"Address {v.kind.text}: {v.message}",
     ["Review veto condition details above", "Consult validation documentation"]⟩

/-- The target that the advice is for: what the checkpoint's name stands for, else what was run. -/
def Verdict.adviceTarget (v : Verdict) : String :=
  match targetTable.lookup v.gate with
  | some target => target
  | none =>
    let id := v.heuristic.getD ""
    if id.isEmpty then v.validator.getD "" else id

/-- The dimensions below the score of review, lowest first. -/
def Verdict.lowDimensions (v : Verdict) : List (String × Float) :=
  ((v.dimensions.getD []).filter fun d => d.2 < reviewScore).mergeSort fun a b => a.2 ≤ b.2

def Verdict.scoreAdvice (v : Verdict) : List Advice :=
  let overall := v.score.toList.map fun x => s!"Current: {twoPlaces x}/10.0"
  let low := (v.lowDimensions.take shownDimensions).map fun (name, x) =>
    s!"{name}: {twoPlaces x}/10.0 - {dimensionAdvice name}"
  let floor := v.leastScore.toList.map fun x => s!"Lowest score: {twoPlaces x}/10.0"
  [⟨"Improve overall axiom score",
    overall ++ [s!"Focus on dimensions scoring below {Format.double reviewScore}"]⟩,
   ⟨"Address low-scoring dimensions",
    if low.isEmpty then ["No dimension below the review score"] else low⟩,
   ⟨"Ensure no dimension falls below minimum",
    floor ++ ["Bring all dimensions to an acceptable baseline"]⟩]

def Verdict.taskAdvice (v : Verdict) : Advice :=
  let rows := (v.missingFields.getD []).map fun (task, fields) =>
    s!"{task}: missing {commaList fields}"
  ⟨"Complete missing Task Anatomy fields", if rows.isEmpty then ["Check every task"] else rows⟩

def Verdict.criteriaAdvice (v : Verdict) : List Advice :=
  let target := v.adviceTarget
  if target = "axiom-compliance" then v.scoreAdvice
  else
    let advice := (adviceTable.lookup target).getD generalAdvice
    if target = "task-anatomy" then v.taskAdvice :: advice else advice

def Documentation.lines (d : Documentation) : List String :=
  [s!"   {d.description}", point s!"{d.sort}: {docsBase}{d.page}",
   point s!"Guide: {docsBase}{d.guide}"]

def Verdict.documentation (v : Verdict) : List String :=
  let ran := [v.heuristic.getD "", v.validator.getD ""].filterMap fun name =>
    documentationTable.lookup name
  let checkpoint := match checkpointTable.lookup v.gate with
    | some title =>
      [s!"   {title}", point s!"Checkpoint: {docsBase}/checkpoints/{v.gate}.md"]
    | none => []
  let rows := ran.flatMap Documentation.lines ++ checkpoint
  if rows.isEmpty then [s!"   General validation docs: {docsBase}/README.md"] else rows

def textOfLines (rows : List String) : String := "\n".intercalate rows

def Verdict.successText (v : Verdict) : String :=
  textOfLines
    ([s!"{checkpointTitle v.gate} validation passed"] ++
      (v.score.toList.map fun x => s!"   Score: {twoPlaces x}") ++
      ["   All criteria met. Proceeding to next phase."])

def Veto.lines (number : Nat) (v : Veto) : List String :=
  let found := match v.value, v.threshold with
    | some x, some y =>
      [point s!"Current value: {Format.double x}",
       point s!"Required threshold: {Format.double y}"]
    | _, _ => []
  s!"   {number}. {v.message}" :: found ++ [point s!"Type: {v.kind.text}"]

def Verdict.vetoText (v : Verdict) : String :=
  let title := String.ofList (Text.upper (checkpointTitle v.gate).toList)
  let conditions := v.vetoes.zipIdx.flatMap fun (veto, i) => veto.lines (i + 1)
  textOfLines
    ([rule, s!"{title} - VETO TRIGGERED", rule, "",
      "CRITICAL: Non-negotiable validation failure detected.",
      "These conditions MUST be fixed before proceeding.", "", "VETO CONDITIONS:"] ++
      conditions ++ ["", "REQUIRED FIXES:"] ++ numbered (v.vetoes.map Veto.advice) ++
      ["", "DOCUMENTATION:"] ++ v.documentation ++
      ["", rule, "Choose: [FIX VETOES] [ABORT WORKFLOW]", rule])

def CriterionResult.lines (number : Nat) (r : CriterionResult) : List String :=
  let message := r.message.getD ""
  let details :=
    if message.isEmpty || message = r.criterion then [] else [point s!"Details: {message}"]
  [s!"   {number}. {r.criterion}", point s!"Expected: {r.expected}",
   point s!"Actual: {r.actual.text}"] ++ details

def Verdict.failureText (v : Verdict) (hints : List String) : String :=
  let failed := v.criteria.filter fun r => !r.passed
  let rows := failed.zipIdx.flatMap fun (r, i) => r.lines (i + 1)
  let advice := v.recommendation.toList.flatMap fun r => ["", s!"RECOMMENDATION: {r.text}"]
  let notes :=
    if hints.isEmpty then [] else "" :: "CHECKPOINT NOTES:" :: hints.map fun h => s!"   - {h}"
  textOfLines
    ([rule, s!"{checkpointTitle v.gate} validation failed", rule, "", "FAILED CRITERIA:"] ++ rows ++
      advice ++ notes ++ ["", "SUGGESTED FIXES:"] ++ numbered v.criteriaAdvice ++
      ["", "DOCUMENTATION:"] ++ v.documentation ++
      ["", rule, "Choose: [FIX] [SKIP VALIDATION] [ABORT WORKFLOW]", rule])

def Verdict.errorText (v : Verdict) : String :=
  s!"{checkpointTitle v.gate} could not be evaluated: {orNone v.message}"

/-- Hints given as any value that can be walked through. -/
def hintTexts (hints : Value) : Except Failure (List String) :=
  if hints.isTruthy then hints.members.map fun vs => vs.map Value.text else .ok []

/-- The text that fits the outcome. Hints are only looked at when criteria failed. -/
def Verdict.describe (v : Verdict) (hints : Value) : Except Failure String :=
  if v.passed then .ok v.successText
  else if v.veto then .ok v.vetoText
  else if v.error then .ok v.errorText
  else hints |> hintTexts |>.map v.failureText

end DecisionGate.Gate
