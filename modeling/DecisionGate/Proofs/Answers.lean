import DecisionGate.Proofs.Execution
import DecisionGate.Proofs.Operation

/-!
# Answers of the gate

The gate of the services shares its compiler and its validator with everybody else. No operation
changes the least score of the validator, so what was said of one gate holds at every point of every
run. A template that does not compile is enough to leave a run of the gate without an answer.
-/
namespace DecisionGate

/-- Two validators that score alike; they differ in their histories at most. -/
structure Belief.Validator.SameRules (v v' : Belief.Validator) : Prop where
  limit : v'.limit = v.limit
  minimum : v'.minimum = v.minimum
  strict : v'.strict = v.strict

namespace Gate

/-- Two gates that differ in their compilers and the histories of their validators at most. -/
structure SameFrame (g g' : Gate) : Prop where
  rules : Belief.Validator.SameRules g.validator g'.validator
  vetoEnabled : g'.vetoEnabled = g.vetoEnabled
  prepared : g'.prepared = g.prepared

theorem SameFrame.refl (g : Gate) : SameFrame g g := ⟨⟨rfl, rfl, rfl⟩, rfl, rfl⟩

theorem validate_rules (validator : Belief.Validator) (content levels minimum strict : Value) :
    Belief.Validator.SameRules validator
      (validator.validate content levels minimum strict).value.2 := by
  rw [Belief.Validator.validate_value]
  repeat' split
  all_goals exact ⟨rfl, rfl, rfl⟩

theorem runBeliefs_rules (g : Gate) (c : Checkpoint) (criteria : List Criteria.Criterion)
    (context : Entries) :
    Belief.Validator.SameRules g.validator (g.runBeliefs c criteria context).value.2 := by
  simp only [runBeliefs]
  split
  · simp only [Report.value_bind, Report.value_pure]
    exact validate_rules g.validator _ _ _ _
  · exact ⟨rfl, rfl, rfl⟩

theorem runTarget_frame (g : Gate) (c : Checkpoint) (criteria : List Criteria.Criterion)
    (context : Entries) : SameFrame g (g.runTarget c criteria context).value.2 := by
  unfold runTarget
  cases c.target with
  | heuristic id =>
    simp only [Report.value_bind, Report.value_pure, function]
    cases g.prepared id <;> exact ⟨⟨rfl, rfl, rfl⟩, rfl, rfl⟩
  | validator name =>
    simp only
    cases checkTable.lookup name with
    | none => exact .refl g
    | some check =>
      cases check with
      | beliefs => exact ⟨g.runBeliefs_rules c criteria context, rfl, rfl⟩
      | tasks => exact .refl g

theorem runCheckpoint_frame (g : Gate) (c : Checkpoint) (context : Value) :
    SameFrame g (g.runCheckpoint c context).value.2 := by
  unfold runCheckpoint
  cases prepare c context with
  | error f => exact .refl g
  | ok run =>
    simp only [Report.value_bind]
    split <;> exact g.runTarget_frame c run.1 run.2

theorem execute_frame (g : Gate) (d : Definition) (context : Value) :
    SameFrame g (g.execute d context).value.2 := by
  unfold execute
  cases d.read with
  | error f => cases d.fallbackName <;> exact .refl g
  | ok phase =>
    obtain ⟨name, _ | c⟩ := phase
    · exact .refl g
    · exact g.runCheckpoint_frame c _

end Gate

namespace Services

theorem minimum_step (s : Services) (op : Operation) :
    (s.step op).validator.minimum = s.validator.minimum := by
  cases op with
  | execute d context => exact (s.gate.execute_frame d context).rules.minimum
  | validate content levels minimum strict =>
    exact (Gate.validate_rules s.validator content levels minimum strict).minimum
  | session id => exact congrArg Belief.Validator.minimum (s.session_frame id).2
  | _ => rfl

theorem minimum_after (s : Services) (ops : List Operation) :
    (s.after ops).validator.minimum = s.validator.minimum := by
  induction ops generalizing s with
  | nil => rfl
  | cons op ops ih => exact (ih (s.step op)).trans (s.minimum_step op)

/-- A definition that is no checkpoint at all. -/
def unsupported : Gate.Definition := .value (.str "checkpoint")

/-- A template that can be registered and never compiles. -/
def broken : Compiler.Proposal where
  name := .str "broken"
  domain := .str "tests"
  action := some .failCompile

/-- A checkpoint on the heuristic of that template. -/
def brokenCheckpoint : Gate.Definition :=
  .value (Value.ofNames [("checkpoint", .str "gate"), ("heuristic", .str "BROKEN")])

end Services

end DecisionGate
