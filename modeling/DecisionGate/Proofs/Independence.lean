import DecisionGate.Proofs.Answers
import DecisionGate.Proofs.MemoTable
import DecisionGate.Proofs.Provenance

/-!
# Runs of a gate do not influence each other

A run of a gate writes to what all runs share: it may leave a function in the cache of the compiler
and an entry in the history of the validator. Neither can be told from the verdict of a later run.
The function is the one that the later run would have compiled itself, up to its serial number, and
the history is never read. This module compares gates by what their compilers offer and what their
validators score by, shows that equal ones give equal verdicts, and that a run keeps them equal.
Registered templates are pure functions here.
-/
namespace DecisionGate

namespace Compiler

variable {c c' : Compiler} {id : String}

/-- What becomes of an id that is compiled without a section, apart from the number of the
function. -/
def offered (c : Compiler) (id : String) : Except Failure Behaviour :=
  (c.compile id .null).value.1.map DecisionFunction.behaviour

theorem offered_of_cached {f : DecisionFunction} (h : c.cached? id = some f) :
    c.offered id = .ok f.behaviour := by
  rw [offered, compile_of_cached h]
  rfl

/-- What is not in the cache is offered as its template makes it. -/
theorem offered_of_missed (h : c.cached? id = none) :
    c.offered id = match c.template? id with
      | none => .error (.unknownHeuristic id)
      | some t => t.compile (.map []) := by
  have htemplate : ({ c with misses := c.misses + 1 } : Compiler).template? id = c.template? id :=
    rfl
  simp only [offered, compile, h, Report.value_bind, htemplate, sectionValue_null]
  cases c.template? id with
  | none => rfl
  | some t =>
    simp only [Report.value_bind]
    cases t.compile (.map []) <;> rfl

/-- Two compilers with the same registered templates that offer the same. -/
structure Alike (c c' : Compiler) : Prop where
  custom : c'.custom = c.custom
  offered : ∀ id, c'.offered id = c.offered id

theorem Alike.refl (c : Compiler) : Alike c c := ⟨rfl, fun _ => rfl⟩

theorem Alike.trans {c'' : Compiler} (h : Alike c c') (h' : Alike c' c'') : Alike c c'' :=
  ⟨h'.custom.trans h.custom, fun id => (h'.offered id).trans (h.offered id)⟩

theorem template?_congr (h : c'.custom = c.custom) (id : String) :
    c'.template? id = c.template? id := by
  rw [template?, template?, h]

theorem offered_congr (hcustom : c'.custom = c.custom) (h : c'.cached? id = c.cached? id) :
    c'.offered id = c.offered id := by
  cases hcached : c.cached? id with
  | some f => rw [offered_of_cached hcached, offered_of_cached (h.trans hcached)]
  | none =>
    rw [offered_of_missed hcached, offered_of_missed (h.trans hcached), template?_congr hcustom]

theorem custom_compile (c : Compiler) (id : String) (config : Value) :
    (c.compile id config).value.2.custom = c.custom := by
  rcases c.compile_cases id config with ⟨f, -, hvalue⟩ | ⟨-, ⟨f, -, hvalue⟩ | ⟨e, -, hvalue⟩⟩ <;>
    exact congrArg (fun r => r.2.custom) hvalue

/-- What compiling without a section leaves in the cache is what was offered before. -/
theorem alike_compile (c : Compiler) (id : String) : Alike c (c.compile id .null).value.2 := by
  refine ⟨c.custom_compile id .null, fun id' => ?_⟩
  have hcached := c.cached?_compile id' id .null
  by_cases hid : id' = id
  · subst hid
    rw [if_pos rfl] at hcached
    cases hfound : (c.compile id' .null).value.1 with
    | ok f =>
      rw [hfound] at hcached
      rw [offered_of_cached hcached, offered, hfound]
      rfl
    | error e =>
      -- The attempt failed, so the cache held nothing and still holds nothing.
      have hmissed : c.cached? id' = none := by
        by_contra hsome
        obtain ⟨f, hf⟩ := Option.ne_none_iff_exists'.mp hsome
        rw [compile_of_cached hf] at hfound
        cases hfound
      rw [hfound] at hcached
      exact offered_congr (c.custom_compile id' .null) (hcached.trans hmissed.symm)
  · rw [if_neg hid] at hcached
    exact offered_congr (c.custom_compile id .null) hcached

end Compiler

namespace Gate

/-- Two gates that no run can tell apart. -/
structure Alike (g g' : Gate) : Prop where
  frame : SameFrame g g'
  compiler : Compiler.Alike g.compiler g'.compiler

variable {g g' : Gate}

theorem SameFrame.trans {g'' : Gate} (h : SameFrame g g') (h' : SameFrame g' g'') :
    SameFrame g g'' where
  rules :=
    { limit := h'.rules.limit.trans h.rules.limit
      minimum := h'.rules.minimum.trans h.rules.minimum
      strict := h'.rules.strict.trans h.rules.strict }
  vetoEnabled := h'.vetoEnabled.trans h.vetoEnabled
  prepared := h'.prepared.trans h.prepared

theorem Alike.refl (g : Gate) : Alike g g := ⟨.refl g, .refl g.compiler⟩

theorem Alike.trans {g'' : Gate} (h : Alike g g') (h' : Alike g' g'') : Alike g g'' :=
  ⟨h.frame.trans h'.frame, h.compiler.trans h'.compiler⟩

theorem function_alike (h : Alike g g') (id : String) :
    (g'.function id).value.1.map DecisionFunction.behaviour =
      (g.function id).value.1.map DecisionFunction.behaviour := by
  unfold function
  rw [h.frame.prepared]
  cases g.prepared id with
  | some f => rfl
  | none => exact h.compiler.offered id

/-- An outcome depends on what a function does, not on its number. -/
theorem heuristicOutcome_of_behaviour {f f' : DecisionFunction} (h : f'.behaviour = f.behaviour)
    (id : String) (context : Entries) :
    heuristicOutcome f' id context = heuristicOutcome f id context := by
  rw [heuristicOutcome, heuristicOutcome, DecisionFunction.call, DecisionFunction.call, h]

theorem outcome_alike {r r' : Except Failure DecisionFunction}
    (h : r'.map DecisionFunction.behaviour = r.map DecisionFunction.behaviour) (id : String)
    (context : Entries) :
    (r' >>= fun f => heuristicOutcome f id context) =
      r >>= fun f => heuristicOutcome f id context := by
  cases r with
  | error e =>
    cases r' with
    | error e' => rw [Except.error.inj h]
    | ok f' => cases h
  | ok f =>
    cases r' with
    | error e' => cases h
    | ok f' => exact heuristicOutcome_of_behaviour (Except.ok.inj h) id context

theorem validate_alike {v v' : Belief.Validator} (h : Belief.Validator.SameRules v v')
    (content levels minimum strict : Value) :
    (v'.validate content levels minimum strict).value.1 =
      (v.validate content levels minimum strict).value.1 := by
  simp only [Belief.Validator.validate_value, h.minimum, h.strict]
  repeat' split
  all_goals rfl

theorem runBeliefs_alike (h : Alike g g') (c : Checkpoint) (criteria : List Criteria.Criterion)
    (context : Entries) :
    (g'.runBeliefs c criteria context).value.1 = (g.runBeliefs c criteria context).value.1 := by
  simp only [runBeliefs, h.frame.vetoEnabled]
  split
  · simp only [Report.value_bind, Report.value_pure, validate_alike h.frame.rules]
  · rfl

theorem runTarget_alike (h : Alike g g') (c : Checkpoint) (criteria : List Criteria.Criterion)
    (context : Entries) :
    (g'.runTarget c criteria context).value.1 = (g.runTarget c criteria context).value.1 := by
  cases htarget : c.target with
  | heuristic id =>
    rw [runTarget_heuristic htarget, runTarget_heuristic htarget]
    exact outcome_alike (function_alike h id) id context
  | validator name =>
    simp only [runTarget, htarget]
    cases checkTable.lookup name with
    | none => rfl
    | some check =>
      cases check with
      | beliefs => exact runBeliefs_alike h c criteria context
      | tasks => rfl

theorem runCheckpoint_alike (h : Alike g g') (c : Checkpoint) (context : Value) :
    (g'.runCheckpoint c context).value.1 = (g.runCheckpoint c context).value.1 := by
  cases hprepare : prepare c context with
  | error f => simp only [runCheckpoint, hprepare, Report.value_pure]
  | ok run =>
    obtain ⟨criteria, es⟩ := run
    rw [runCheckpoint_prepared hprepare, runCheckpoint_prepared hprepare, runTarget_alike h]

theorem execute_alike (h : Alike g g') (d : Definition) (context : Value) :
    (g'.execute d context).value.1 = (g.execute d context).value.1 := by
  cases hread : d.read with
  | error f => rw [execute_unread hread, execute_unread hread]
  | ok phase =>
    obtain ⟨name, _ | c⟩ := phase
    · simp only [execute, hread, Report.value_pure]
    · rw [execute_checkpoint hread, execute_checkpoint hread, runCheckpoint_alike h]

/-- After a run a gate is what it was before, as far as other runs can tell. -/
theorem alike_execute (g : Gate) (d : Definition) (context : Value) :
    Alike g (g.execute d context).value.2 := by
  refine ⟨g.execute_frame d context, ?_⟩
  rcases g.execute_compiler d context with hsame | ⟨id, hcompiled⟩
  · rw [hsame]
    exact .refl g.compiler
  · rw [hcompiled]
    exact g.compiler.alike_compile id

end Gate

namespace Services

/-- The services after some runs of the gate. -/
def executed (s : Services) (runs : List (Gate.Definition × Value)) : Services :=
  s.after (runs.map fun run => .execute run.1 run.2)

/-- What the gate takes from the bundle is still there after a run. -/
theorem gate_step_execute (s : Services) (d : Gate.Definition) (context : Value) :
    s.gate.Alike (s.step (.execute d context)).gate := by
  obtain ⟨hframe, hcompiler⟩ := s.gate.alike_execute d context
  exact ⟨⟨hframe.rules, rfl, rfl⟩, hcompiler⟩

theorem gate_executed (s : Services) (runs : List (Gate.Definition × Value)) :
    s.gate.Alike (s.executed runs).gate := by
  induction runs generalizing s with
  | nil => exact .refl s.gate
  | cons run runs ih => exact (s.gate_step_execute run.1 run.2).trans (ih _)

/-- What runs of the gate leave as it is: everything but the cache and the counts of the compiler
and the history of the validator. -/
structure Untouched (s s' : Services) : Prop where
  bundle : s'.mind.bundle = s.mind.bundle
  store : s'.mind.store = s.mind.store
  sessions : s'.sessions = s.sessions
  templates : s'.mind.compiler.custom = s.mind.compiler.custom
  rules : Belief.Validator.SameRules s.validator s'.validator
  shelf : s'.mind.shelf = s.mind.shelf
  environment : s'.mind.environment = s.mind.environment
  published : s'.mind.published = s.mind.published
  tree : s'.tree = s.tree
  now : s'.now = s.now

/-- Nothing else is put into the services after a run. -/
theorem executed_eq (s : Services) (runs : List (Gate.Definition × Value)) :
    s.executed runs =
      { s with
        mind := { s.mind with compiler := (s.executed runs).mind.compiler }
        validator := (s.executed runs).validator } := by
  induction runs generalizing s with
  | nil => rfl
  | cons run runs ih => exact ih (s.step (.execute run.1 run.2))

theorem untouched_executed (s : Services) (runs : List (Gate.Definition × Value)) :
    s.Untouched (s.executed runs) where
  bundle := congrArg (fun t => t.mind.bundle) (s.executed_eq runs)
  store := congrArg (fun t => t.mind.store) (s.executed_eq runs)
  sessions := congrArg (fun t => t.sessions) (s.executed_eq runs)
  templates := (s.gate_executed runs).compiler.custom
  rules := (s.gate_executed runs).frame.rules
  shelf := congrArg (fun t => t.mind.shelf) (s.executed_eq runs)
  environment := congrArg (fun t => t.mind.environment) (s.executed_eq runs)
  published := congrArg (fun t => t.mind.published) (s.executed_eq runs)
  tree := congrArg (fun t => t.tree) (s.executed_eq runs)
  now := congrArg (fun t => t.now) (s.executed_eq runs)

/-- In every state, after any runs of the gate, a further run has the verdict, or the failure that
it passes on, that it would have had without them. None of them touches the bundle, the store, the
sessions or the registered templates. -/
theorem executions_independent (s : Services) (runs : List (Gate.Definition × Value))
    (d : Gate.Definition) (context : Value) :
    ((s.executed runs).execute d context).value.1 = (s.execute d context).value.1 ∧
      s.Untouched (s.executed runs) :=
  ⟨Gate.execute_alike (s.gate_executed runs) d context, s.untouched_executed runs⟩

/-- A checkpoint whose function has to be compiled. -/
def backCastingRun : Gate.Definition × Value :=
  (.checkpoint { name := "gate", target := .heuristic Builtin.backCasting.id }, .null)

set_option maxRecDepth 100000 in
/-- The second of two runs is served the function that the first one compiled. -/
theorem executions_independent_shared : ∃ s,
    (build (bareSettings []) bareTree).value = .ok s ∧
      (s.executed [backCastingRun, backCastingRun]).mind.compiler.misses = 1 ∧
      (s.executed [backCastingRun, backCastingRun]).mind.compiler.hits = 1 ∧
      ((s.executed [backCastingRun]).execute backCastingRun.1 backCastingRun.2).value.1 =
        (s.execute backCastingRun.1 backCastingRun.2).value.1 := by
  obtain ⟨s, hs, hcounts⟩ := exists_of_bareRun []
    [.execute backCastingRun.1 backCastingRun.2, .execute backCastingRun.1 backCastingRun.2]
    (fun s => s.mind.compiler.misses == 1 && s.mind.compiler.hits == 1) (by decide +kernel)
  obtain ⟨hmisses, hhits⟩ := Bool.and_eq_true_iff.mp hcounts
  refine ⟨s, hs, beq_iff_eq.mp hmisses, beq_iff_eq.mp hhits, ?_⟩
  exact (executions_independent s [backCastingRun] backCastingRun.1 backCastingRun.2).1

end Services

end DecisionGate
