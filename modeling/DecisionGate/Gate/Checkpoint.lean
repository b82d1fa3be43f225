import DecisionGate.Criteria.Grammar
import DecisionGate.Failure

/-!
What a checkpoint runs and what it must satisfy. A checkpoint names exactly one target, a heuristic
or a structural validator; a phase has a checkpoint or none. Both are read from documents, and the
problems of all fields are reported together.
-/
namespace DecisionGate.Gate

inductive Target where
  | heuristic (id : String)
  | validator (name : String)
  deriving DecidableEq, Repr

structure Checkpoint where
  name : String
  target : Target
  criteria : List Criteria.Item := []
  /-- The dimensions that are scored; none means the usual ones. -/
  dimensions : List String := []
  /-- The fields that a task must have; none means the usual ones. -/
  requiredFields : List String := []
  leastDimension : Option Float := none
  hints : List String := []

/-- A phase without a checkpoint is skipped. -/
structure Phase where
  name : String
  checkpoint : Option Checkpoint

/-- The name of a phase that has none. -/
def unnamed : String := "phase"

open Schema

/-- The target, when exactly one is named; an empty name names nothing. -/
def Target.of? (heuristic validator : Option String) : Option Target :=
  match heuristic.getD "", validator.getD "" with
  | "", "" => none
  | "", name => some (.validator name)
  | id, "" => some (.heuristic id)
  | _, _ => none

/-- A criterion is a ready one, a mapping or a text. -/
def checkCriterion (v : Value) : Checked Criteria.Item :=
  match v with
  | .str _ => .ok (.value v)
  | .map _ => .ok (.value v)
  | v =>
    .error
      [⟨.model Criteria.schemaTitle, [.name "function-after[_check_shape(), Criterion]"], v⟩,
       ⟨.mapping, [.name "dict[str,any]"], v⟩, ⟨.text, [.name "str"], v⟩]

structure Checkpoint.Fields where
  name : String
  heuristic : Option String
  validator : Option String
  criteria : List Criteria.Item
  dimensions : Option (List String)
  requiredFields : Option (List String)
  leastDimension : Option Float
  hints : List String

def Checkpoint.Fields.ofEntries (es : Entries) : Checked Checkpoint.Fields :=
  let optionalTexts := optional (listOf text)
  Checked.ap (Checked.ap (Checked.ap (Checked.ap (Checked.ap (Checked.ap (Checked.ap
    ((required es "checkpoint" text).map Checkpoint.Fields.mk)
    (withDefault es "heuristic" (optional text) none))
    (withDefault es "validator" (optional text) none))
    (withDefault es "criteria" (listOf checkCriterion) []))
    (withDefault es "dimensions" optionalTexts none))
    (withDefault es "required_fields" optionalTexts none))
    (withDefault es "min_dimension_score" (optional number) none))
    (withDefault es "feedback_on_failure" (listOf text) [])

def oneTarget : Expectation :=
  .rule "Checkpoint must name exactly one of 'heuristic' or 'validator'"

def Checkpoint.ofValue (v : Value) : Checked Checkpoint :=
  match v with
  | .map es => do
    let f ← Checkpoint.Fields.ofEntries es
    match Target.of? f.heuristic f.validator with
    | none => refuse oneTarget v
    | some target =>
      .ok { name := f.name, target, criteria := f.criteria
            dimensions := f.dimensions.getD [], requiredFields := f.requiredFields.getD []
            leastDimension := f.leastDimension, hints := f.hints }
  | v => refuse (.model "ValidationSpec") v

/-- The word that stands for no checkpoint. -/
def noCheckpoint : String := "none"

/-- A checkpoint, or the word or the null that stands for none. -/
def checkOptional (v : Value) : Checked (Option Checkpoint) :=
  match v with
  | .null => .ok none
  | v =>
    if v.text? = some noCheckpoint then .ok none
    else
      match Checkpoint.ofValue v with
      | .ok c => .ok (some c)
      | .error ps =>
        .error (ps.map (Problem.under (.name "function-after[_one_target(), ValidationSpec]")) ++
          [⟨.literal [noCheckpoint], [.name "literal['none']"], v⟩])

def Phase.ofEntries (es : Entries) : Checked Phase :=
  Checked.ap ((withDefault es "name" text unnamed).map Phase.mk)
    (withDefault es "validation" checkOptional none)

def Phase.ofValue (v : Value) : Checked Phase :=
  match v with
  | .map es => Phase.ofEntries es
  | v => refuse (.model "PhaseSpec") v

/-- What a gate is asked to run: a document or something that was read before. -/
inductive Definition where
  | value (v : Value)
  | checkpoint (c : Checkpoint)
  | phase (p : Phase)

/-- A mapping with a checkpoint and no validation is a bare checkpoint, any other a phase. -/
def Definition.ofEntries (es : Entries) : Except Failure Phase :=
  if es.hasName "checkpoint" && !es.hasName "validation" then
    match Checkpoint.ofValue (.map es) with
    | .ok c => .ok ⟨c.name, some c⟩
    | .error ps => .error (.schema "ValidationSpec" ps)
  else (Phase.ofEntries es).mapError (Failure.schema "PhaseSpec")

def Definition.read : Definition → Except Failure Phase
  | .checkpoint c => .ok ⟨c.name, some c⟩
  | .phase p => .ok p
  | .value .null => .ok ⟨unnamed, none⟩
  | .value (.map es) => ofEntries es
  | .value v =>
    if v.text? = some noCheckpoint then .ok ⟨unnamed, none⟩
    else .error (.badValue s!"Unsupported checkpoint definition: {v.kindName}")

/-- The text of a value within a message. -/
def shown (v : Value) : Except Failure String :=
  if v.hasText then .ok v.text else .error (.fault .integerTooLong)

/-- The name that an unreadable definition goes by. -/
def Definition.fallbackName : Definition → Except Failure String
  | .value (.map es) => shown ((Entries.get? es "name").getD (.str unnamed))
  | _ => .ok unnamed

end DecisionGate.Gate
