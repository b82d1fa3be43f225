import DecisionGate.Proofs.Compilation
import DecisionGate.Proofs.Judgement
import DecisionGate.Proofs.Structure

/-!
# Runs of a gate that end without a verdict

A gate turns the failures of the library's own kinds into verdicts and passes all others on. This
module says exactly which runs end that way, and that in every other run whatever went wrong comes
back as a verdict of error. It holds for every checkpoint, every context and every registered
template.
-/
namespace DecisionGate

namespace Compiler

/-- A registered template that has to be compiled and does not compile, with a failure of its
own. -/
inductive Uncompilable (c : Compiler) (id : String) : Prop
  | mk (t : Template) (action : CustomAction) (f : Failure) : c.cached? id = none →
      c.template? id = some t → t.source = .custom action →
      action.compile (.map []) = .error f → f.isDomain = false → Uncompilable c id

/-- What is not in the cache is compiled from its template. -/
theorem compile_missed {c : Compiler} {id : String} (h : c.cached? id = none) :
    Escapes (c.compile id .null).value.1 ↔
      ∃ t, c.template? id = some t ∧ Escapes (t.compile (.map [])) := by
  have htemplate : ({ c with misses := c.misses + 1 } : Compiler).template? id = c.template? id :=
    rfl
  simp only [compile, h, Report.value_bind, htemplate, sectionValue_null]
  cases c.template? id with
  | none => simp [Failure.isDomain]
  | some t => cases ht : t.compile (.map []) <;> simp [ht]

/-- Built-in heuristics always compile. -/
theorem template_escapes (t : Template) :
    Escapes (t.compile (.map [])) ↔ ∃ action f, t.source = .custom action ∧
      action.compile (.map []) = .error f ∧ f.isDomain = false := by
  cases hsource : t.source with
  | builtin b => simp [Template.compile, hsource]
  | custom action =>
    simp only [Template.compile, hsource, escapes_map, Source.custom.injEq]
    constructor
    · intro h
      obtain ⟨f, hf, hdomain⟩ := h
      exact ⟨action, f, rfl, hf, hdomain⟩
    · intro h
      obtain ⟨_, f, rfl, hf, hdomain⟩ := h
      exact ⟨f, hf, hdomain⟩

theorem compile_escapes (c : Compiler) (id : String) :
    Escapes (c.compile id .null).value.1 ↔ c.Uncompilable id := by
  cases hcached : c.cached? id with
  | some f =>
    rw [compile_of_cached hcached]
    constructor
    · simp
    · intro h
      obtain ⟨t, action, f, hnone, -⟩ := h
      simp [hcached] at hnone
  | none =>
    simp only [compile_missed hcached, template_escapes]
    constructor
    · intro h
      obtain ⟨t, ht, action, f, hsource, hf, hdomain⟩ := h
      exact ⟨t, action, f, hcached, ht, hsource, hf, hdomain⟩
    · intro h
      obtain ⟨t, action, f, -, ht, hsource, hf, hdomain⟩ := h
      exact ⟨t, ht, action, f, hsource, hf, hdomain⟩

end Compiler

namespace Gate

/-- What a target does that the gate passes on. -/
inductive TargetEscapes (g : Gate) (c : Checkpoint) (context : Entries) : Prop
  | template (id : String) : c.target = .heuristic id → g.prepared id = none →
      g.compiler.Uncompilable id → TargetEscapes g c context
  | report (id : String) (f : DecisionFunction) (answer : Answer) : c.target = .heuristic id →
      (g.function id).value.1 = .ok f → f.call (.map context) = .ok answer →
      Unreported id context (detailsOf answer) → TargetEscapes g c context
  | dimension (name : String) : c.target = .validator name →
      checkTable.lookup name = some .beliefs → OversizedScore c (givenScores context) →
      TargetEscapes g c context
  | content (name : String) : c.target = .validator name →
      checkTable.lookup name = some .beliefs → UnwrittenContent context → TargetEscapes g c context
  | task (name : String) : c.target = .validator name → checkTable.lookup name = some .tasks →
      UnnamedTask c context → TargetEscapes g c context

theorem function_escapes (g : Gate) (id : String) :
    Escapes (g.function id).value.1 ↔ g.prepared id = none ∧ g.compiler.Uncompilable id := by
  cases h : g.prepared id with
  | some f => simp [function, h]
  | none => simp [function, h, Compiler.compile_escapes]

theorem runTarget_heuristic {g : Gate} {c : Checkpoint} {id : String}
    (h : c.target = .heuristic id) (criteria : List Criteria.Criterion) (context : Entries) :
    (g.runTarget c criteria context).value.1 =
      (g.function id).value.1 >>= fun f => heuristicOutcome f id context := by
  simp only [runTarget, h, Report.value_bind, Report.value_pure]
  rfl

theorem targetEscapes_heuristic {g : Gate} {c : Checkpoint} {context : Entries} {id : String}
    (h : c.target = .heuristic id) :
    g.TargetEscapes c context ↔ (g.prepared id = none ∧ g.compiler.Uncompilable id) ∨
      ∃ f, (g.function id).value.1 = .ok f ∧ ∃ answer, f.call (.map context) = .ok answer ∧
        Unreported id context (detailsOf answer) := by
  constructor
  · intro hx
    rcases hx with
      ⟨id', hid, hprepared, hcompile⟩ | ⟨id', f, answer, hid, hf, hanswer, hbad⟩ |
      ⟨name, hname, -⟩ | ⟨name, hname, -⟩ | ⟨name, hname, -⟩
    · obtain rfl : id = id' := Target.heuristic.inj (h.symm.trans hid)
      exact .inl ⟨hprepared, hcompile⟩
    · obtain rfl : id = id' := Target.heuristic.inj (h.symm.trans hid)
      exact .inr ⟨f, hf, answer, hanswer, hbad⟩
    · cases h.symm.trans hname
    · cases h.symm.trans hname
    · cases h.symm.trans hname
  · intro hx
    rcases hx with ⟨hprepared, hcompile⟩ | ⟨f, hf, answer, hanswer, hbad⟩
    · exact .template id h hprepared hcompile
    · exact .report id f answer h hf hanswer hbad

theorem targetEscapes_validator {g : Gate} {c : Checkpoint} {context : Entries} {name : String}
    (h : c.target = .validator name) :
    g.TargetEscapes c context ↔
      checkTable.lookup name = some .beliefs ∧
          (UnwrittenContent context ∨ OversizedScore c (givenScores context)) ∨
      checkTable.lookup name = some .tasks ∧ UnnamedTask c context := by
  constructor
  · intro hx
    rcases hx with
      ⟨id, hid, -⟩ | ⟨id, f, answer, hid, -⟩ | ⟨name', hname, hcheck, hbad⟩ |
      ⟨name', hname, hcheck, hbad⟩ | ⟨name', hname, hcheck, hbad⟩
    · cases h.symm.trans hid
    · cases h.symm.trans hid
    · obtain rfl : name = name' := Target.validator.inj (h.symm.trans hname)
      exact .inl ⟨hcheck, .inr hbad⟩
    · obtain rfl : name = name' := Target.validator.inj (h.symm.trans hname)
      exact .inl ⟨hcheck, .inl hbad⟩
    · obtain rfl : name = name' := Target.validator.inj (h.symm.trans hname)
      exact .inr ⟨hcheck, hbad⟩
  · intro hx
    rcases hx with ⟨hcheck, hbad | hbad⟩ | ⟨hcheck, hbad⟩
    · exact .content name h hcheck hbad
    · exact .dimension name h hcheck hbad
    · exact .task name h hcheck hbad

/-- A target escapes exactly as said. -/
theorem runTarget_escapes {g : Gate} {x : Float} (h : g.validator.minimum = .float x)
    (c : Checkpoint) (criteria : List Criteria.Criterion) (context : Entries) :
    Escapes (g.runTarget c criteria context).value.1 ↔ g.TargetEscapes c context := by
  cases htarget : c.target with
  | heuristic id =>
    rw [runTarget_heuristic htarget, escapes_bind, function_escapes,
      targetEscapes_heuristic htarget]
    simp only [heuristicOutcome_escapes]
  | validator name =>
    rw [targetEscapes_validator htarget]
    simp only [runTarget, htarget]
    cases hcheck : checkTable.lookup name with
    | none => simp [Failure.isDomain]
    | some check =>
      cases check with
      | beliefs => simp [runBeliefs_escapes g h]
      | tasks => simp [runTasks_escapes]

/-- The context of a run; null counts as the empty one. -/
def contextOf : Value → Value
  | .null => .map []
  | v => v

/-- What makes the run of a checkpoint end without a verdict. -/
inductive Unjudged (g : Gate) (c : Checkpoint) (context : Value) : Prop
  | criterion (es : Entries) (item : Criteria.Item) : context = .map es → item ∈ c.criteria →
      item.isReportable = false → Unjudged g c context
  | target (criteria : List Criteria.Criterion) (es : Entries) :
      prepare c context = .ok (criteria, es) → g.TargetEscapes c es → Unjudged g c context
  | verdict (criteria : List Criteria.Criterion) (es : Entries) (o : Outcome)
      (k : Criteria.Criterion) (actual : Value) : prepare c context = .ok (criteria, es) →
      (g.runTarget c criteria es).value.1 = .ok o → o.vetoes = [] → k ∈ criteria →
      resolve? o es k = some actual → Unjudgeable k actual → Unjudged g c context

theorem prepare_escapes (c : Checkpoint) (context : Value) :
    Escapes (prepare c context) ↔
      ∃ es item, context = .map es ∧ item ∈ c.criteria ∧ item.isReportable = false := by
  cases context with
  | map es =>
    simp only [prepare]
    split
    · next hall =>
      cases Criteria.parseAll c.criteria <;> simpa [Failure.isDomain] using hall
    · next hsome =>
      simpa [Failure.isDomain] using hsome
  | _ => simp [prepare, refused, Failure.isDomain]

theorem runCheckpoint_prepared {g : Gate} {c : Checkpoint} {context : Value}
    {criteria : List Criteria.Criterion} {es : Entries}
    (h : prepare c context = .ok (criteria, es)) :
    (g.runCheckpoint c context).value.1 =
      (g.runTarget c criteria es).value.1 >>= fun o => (judge c criteria es o).value := by
  simp only [runCheckpoint, h, Report.value_bind]
  cases (g.runTarget c criteria es).value.1 <;> rfl

theorem judge_unjudgeable {c : Checkpoint} {criteria : List Criteria.Criterion} {es : Entries}
    {o : Outcome} : Escapes (judge c criteria es o).value ↔ o.vetoes = [] ∧
      ∃ k ∈ criteria, ∃ actual, resolve? o es k = some actual ∧ Unjudgeable k actual := by
  by_cases hvetoes : o.vetoes = []
  · simp [judge_escapes c criteria es hvetoes, hvetoes]
  · simp [judge_vetoed c criteria es hvetoes, hvetoes]

theorem runCheckpoint_escapes {g : Gate} {x : Float} (h : g.validator.minimum = .float x)
    (c : Checkpoint) (context : Value) :
    Escapes (g.runCheckpoint c context).value.1 ↔ g.Unjudged c context := by
  cases hprepare : prepare c context with
  | error f =>
    have hrun : (g.runCheckpoint c context).value.1 = .error f := by
      simp [runCheckpoint, hprepare]
    have hsame : Escapes (.error f : Except Failure Verdict) ↔ Escapes (prepare c context) := by
      simp [hprepare]
    rw [hrun, hsame, prepare_escapes]
    constructor
    · intro hx
      obtain ⟨es, item, hes, hitem, hbad⟩ := hx
      exact .criterion es item hes hitem hbad
    · intro hx
      rcases hx with
        ⟨es, item, hes, hitem, hbad⟩ | ⟨criteria, es, hok, -⟩ |
        ⟨criteria, es, o, k, actual, hok, -⟩
      · exact ⟨es, item, hes, hitem, hbad⟩
      · simp [hprepare] at hok
      · simp [hprepare] at hok
  | ok run =>
    obtain ⟨criteria, es⟩ := run
    rw [runCheckpoint_prepared hprepare, escapes_bind, runTarget_escapes h]
    simp only [judge_unjudgeable]
    constructor
    · intro hx
      rcases hx with htarget | ⟨o, ho, hvetoes, k, hk, actual, hactual, hbad⟩
      · exact .target criteria es hprepare htarget
      · exact .verdict criteria es o k actual hprepare ho hvetoes hk hactual hbad
    · intro hx
      rcases hx with
        ⟨es', item, hes, hitem, hbad⟩ | ⟨criteria', es', hok, htarget⟩ |
        ⟨criteria', es', o, k, actual, hok, ho, hvetoes, hk, hactual, hbad⟩
      · have := (prepare_escapes c context).mpr ⟨es', item, hes, hitem, hbad⟩
        simp [hprepare] at this
      · obtain ⟨rfl, rfl⟩ := Prod.mk.inj (Except.ok.inj (hprepare.symm.trans hok))
        exact .inl htarget
      · obtain ⟨rfl, rfl⟩ := Prod.mk.inj (Except.ok.inj (hprepare.symm.trans hok))
        exact .inr ⟨o, ho, hvetoes, k, hk, actual, hactual, hbad⟩

/-- What goes wrong in a run: the definition cannot be read, or the checkpoint fails. -/
inductive Problem (g : Gate) (d : Definition) (context : Value) : Failure → Prop
  | definition (f : Failure) : d.read = .error f → Problem g d context f
  | checkpoint (name : String) (c : Checkpoint) (f : Failure) :
      d.read = .ok ⟨name, some c⟩ →
      (g.runCheckpoint c (contextOf context)).value.1 = .error f → Problem g d context f

/-- What makes a run end without a verdict. -/
inductive Uncaught (g : Gate) (d : Definition) (context : Value) : Prop
  | definition (es : Entries) (name : Value) (f : Failure) : d = .value (.map es) →
      d.read = .error f → es.get? "name" = some name → name.hasText = false →
      Uncaught g d context
  | checkpoint (name : String) (c : Checkpoint) : d.read = .ok ⟨name, some c⟩ →
      g.Unjudged c (contextOf context) → Uncaught g d context

/-- A verdict that says that the configuration has to be checked. -/
structure Reports (v : Verdict) (f : Failure) : Prop where
  passed : v.passed = false
  error : v.error = true
  severity : v.severity = some .critical
  recommendation : v.recommendation = some .checkConfiguration
  message : v.message = some (errorMessage f)

theorem errorVerdict_reports (name : String) (f : Failure) :
    Reports (errorVerdict name f).value f := ⟨rfl, rfl, rfl, rfl, rfl⟩

theorem fallbackName_fails (d : Definition) :
    Fails d.fallbackName ↔ ∃ (es : Entries) (name : Value), d = .value (.map es) ∧
      es.get? "name" = some name ∧ name.hasText = false := by
  unfold Definition.fallbackName
  split
  · next es =>
    rw [shown_fails]
    cases hname : Entries.get? es "name" with
    | none => simp [hname, Value.hasText]
    | some name => simp [hname]
  · next hother =>
    simp only [not_fails_ok, false_iff]
    intro h
    obtain ⟨es, -, hd, -⟩ := h
    exact hother es hd

/-- Only an error has a verdict of error. -/
theorem judge_error {c : Checkpoint} {criteria : List Criteria.Criterion} {es : Entries}
    {o : Outcome} {v : Verdict} (h : (judge c criteria es o).value = .ok v) : v.error = false := by
  by_cases hvetoes : o.vetoes = []
  · rw [judge_value c criteria es hvetoes] at h
    cases hresults : criteria.mapM (evaluate o es) with
    | error f => simp [hresults] at h
    | ok results =>
      simp only [hresults, ok_bind, criteriaVerdict] at h
      split at h
      · obtain rfl := Except.ok.inj h
        rfl
      · split at h
        · obtain rfl := Except.ok.inj h
          rfl
        · cases h
  · rw [judge_vetoed c criteria es hvetoes] at h
    obtain rfl := Except.ok.inj h
    rfl

theorem runCheckpoint_error {g : Gate} {c : Checkpoint} {context : Value} {v : Verdict}
    (h : (g.runCheckpoint c context).value.1 = .ok v) : v.error = false := by
  cases hprepare : prepare c context with
  | error f => simp [runCheckpoint, hprepare] at h
  | ok run =>
    obtain ⟨criteria, es⟩ := run
    rw [runCheckpoint_prepared hprepare] at h
    cases htarget : (g.runTarget c criteria es).value.1 with
    | error f => simp [htarget] at h
    | ok o =>
      rw [htarget, ok_bind] at h
      exact judge_error h

theorem execute_unread {g : Gate} {d : Definition} {f : Failure} (h : d.read = .error f)
    (context : Value) :
    (g.execute d context).value.1 = d.fallbackName.map fun name => (errorVerdict name f).value := by
  simp only [execute, h]
  cases d.fallbackName <;> rfl

theorem execute_checkpoint {g : Gate} {d : Definition} {name : String} {c : Checkpoint}
    (h : d.read = .ok ⟨name, some c⟩) (context : Value) :
    (g.execute d context).value.1 =
      (conclude c (g.runCheckpoint c (contextOf context)).value.1).value := by
  simp only [execute, h, Report.value_bind]
  rfl

theorem conclude_error (c : Checkpoint) (f : Failure) :
    (conclude c (.error f)).value =
      if f.isDomain then .ok (errorVerdict c.name f).value else .error f := by
  cases h : f.isDomain <;> simp [conclude, h]

theorem problem_unread {g : Gate} {d : Definition} {f : Failure} (h : d.read = .error f)
    {context : Value} {f' : Failure} : g.Problem d context f' ↔ f' = f := by
  constructor
  · intro hx
    rcases hx with ⟨_, hread⟩ | ⟨name, c, _, hread, -⟩
    · exact Except.error.inj (hread.symm.trans h)
    · simp [h] at hread
  · intro hx
    obtain rfl := hx
    exact .definition f' h

theorem problem_skipped {g : Gate} {d : Definition} {name : String} (h : d.read = .ok ⟨name, none⟩)
    {context : Value} {f : Failure} : ¬ g.Problem d context f := by
  intro hx
  rcases hx with ⟨_, hread⟩ | ⟨name, c, _, hread, -⟩
  · simp [h] at hread
  · simp [h] at hread

theorem checkpoint_unique {d : Definition} {name name' : String} {c c' : Checkpoint}
    (h : d.read = .ok ⟨name, some c⟩) (h' : d.read = .ok ⟨name', some c'⟩) : c = c' := by
  obtain ⟨-, hsome⟩ := Phase.mk.inj (Except.ok.inj (h.symm.trans h'))
  exact Option.some.inj hsome

theorem problem_checkpoint {g : Gate} {d : Definition} {name : String} {c : Checkpoint}
    (h : d.read = .ok ⟨name, some c⟩) {context : Value} {f : Failure} :
    g.Problem d context f ↔ (g.runCheckpoint c (contextOf context)).value.1 = .error f := by
  constructor
  · intro hx
    rcases hx with ⟨_, hread⟩ | ⟨name', c', _, hread, hrun⟩
    · simp [h] at hread
    · obtain rfl : c = c' := checkpoint_unique h hread
      exact hrun
  · exact .checkpoint name c f h

theorem uncaught_unread {g : Gate} {d : Definition} {f : Failure} (h : d.read = .error f)
    {context : Value} : g.Uncaught d context ↔ Fails d.fallbackName := by
  rw [fallbackName_fails]
  constructor
  · intro hx
    rcases hx with ⟨es, name, _, hd, -, hname, htext⟩ | ⟨name, c, hread, -⟩
    · exact ⟨es, name, hd, hname, htext⟩
    · simp [h] at hread
  · intro hx
    obtain ⟨es, name, hd, hname, htext⟩ := hx
    exact .definition es name f hd h hname htext

theorem uncaught_skipped {g : Gate} {d : Definition} {name : String} (h : d.read = .ok ⟨name, none⟩)
    {context : Value} : ¬ g.Uncaught d context := by
  intro hx
  rcases hx with ⟨es, name, _, -, hread, -⟩ | ⟨name, c, hread, -⟩
  · simp [h] at hread
  · simp [h] at hread

theorem uncaught_checkpoint {g : Gate} {x : Float} (hx : g.validator.minimum = .float x)
    {d : Definition} {name : String} {c : Checkpoint} (h : d.read = .ok ⟨name, some c⟩)
    {context : Value} : g.Uncaught d context ↔
      Escapes (g.runCheckpoint c (contextOf context)).value.1 := by
  rw [runCheckpoint_escapes hx]
  constructor
  · intro hcase
    rcases hcase with ⟨es, name, _, -, hread, -⟩ | ⟨name', c', hread, hbad⟩
    · simp [h] at hread
    · obtain rfl : c = c' := checkpoint_unique h hread
      exact hbad
  · exact .checkpoint name c h

/-- What a verdict says about what went wrong: an error if anything did, and which. -/
structure Answers (g : Gate) (d : Definition) (context : Value) (v : Verdict) : Prop where
  error_iff : v.error = true ↔ ∃ f, g.Problem d context f
  reports : ∀ f, g.Problem d context f → Reports v f

theorem answers_of_problem {g : Gate} {d : Definition} {context : Value} {f : Failure}
    (h : ∀ f', g.Problem d context f' ↔ f' = f) (name : String) :
    g.Answers d context (errorVerdict name f).value := by
  have hreports := errorVerdict_reports name f
  constructor
  · simp [h, hreports.error]
  · intro f' hf'
    rw [(h f').mp hf']
    exact hreports

/-- A run gives a verdict exactly when nothing ends it without one, and then whatever went wrong is
in the verdict. -/
theorem execute_answered_iff {g : Gate} {x : Float} (hx : g.validator.minimum = .float x)
    (d : Definition) (context : Value) :
    (∃ v, (g.execute d context).value.1 = .ok v ∧ g.Answers d context v) ↔
      ¬ g.Uncaught d context := by
  -- A definition is unreadable, is without a checkpoint, or has one; each has its own outcomes.
  cases hread : d.read with
  | error f =>
    rw [execute_unread hread, uncaught_unread hread]
    cases hname : d.fallbackName with
    | error f' => simp [Except.map]
    | ok name =>
      have hproblem : ∀ f', g.Problem d context f' ↔ f' = f := fun _ => problem_unread hread
      have hanswers := answers_of_problem hproblem name
      simp [Except.map, hanswers]
  | ok phase =>
    obtain ⟨name, _ | c⟩ := phase
    · have hvalue : (g.execute d context).value.1 = .ok (skippedVerdict name) := by
        simp [execute, hread]
      have hanswers : g.Answers d context (skippedVerdict name) :=
        { error_iff := by simp [problem_skipped hread, skippedVerdict]
          reports := fun f hf => absurd hf (problem_skipped hread) }
      simp [hvalue, hanswers, uncaught_skipped hread]
    · rw [execute_checkpoint hread, uncaught_checkpoint hx hread]
      cases hrun : (g.runCheckpoint c (contextOf context)).value.1 with
      | ok v =>
        have hanswers : g.Answers d context v :=
          { error_iff := by simp [problem_checkpoint hread, hrun, runCheckpoint_error hrun]
            reports := fun f hf => by simp [problem_checkpoint hread, hrun] at hf }
        simp [conclude, hanswers]
      | error f =>
        have hproblem : ∀ f', g.Problem d context f' ↔ f' = f := by
          intro f'
          rw [problem_checkpoint hread, hrun, Except.error.injEq]
          exact eq_comm
        have hanswers := answers_of_problem hproblem c.name
        rw [conclude_error]
        cases hdomain : f.isDomain <;> simp [hanswers, hdomain]

end Gate

end DecisionGate
