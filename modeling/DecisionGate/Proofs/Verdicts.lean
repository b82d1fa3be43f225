import DecisionGate.Proofs.Execution

/-!
# The kinds of verdicts

A run that comes to a verdict ends in one of five ways: there was nothing to run, the target was
vetoed, all criteria passed, some criterion failed, or something went wrong. This module says which
verdict belongs to which end, and that the flags of a verdict tell the five apart. Criteria are
looked at only when nothing was vetoed.
-/
namespace DecisionGate

namespace Gate

open Criteria (Criterion)

/-- A result says what its criterion asks for and what was found, and whether that is enough. -/
structure Evaluated (o : Outcome) (context : Entries) (k : Criterion) (r : CriterionResult) :
    Prop where
  criterion : r.criterion = k.label
  field : r.field = k.field
  expected : r.expected = k.expected
  actual : r.actual = (resolve? o context k).getD .null
  passed : r.passed = true ↔
    ∃ actual, resolve? o context k = some actual ∧ k.compare actual = .ok true

theorem evaluated_of_evaluate {o : Outcome} {context : Entries} {k : Criterion}
    {r : CriterionResult} (h : evaluate o context k = .ok r) : Evaluated o context k r := by
  cases hfound : resolve? o context k with
  | none =>
    simp only [evaluate, hfound, criterionMessage, ok_bind, Except.ok.injEq] at h
    subst h
    exact ⟨rfl, rfl, rfl, by rw [hfound], by simp [hfound]⟩
  | some actual =>
    rw [evaluate_found hfound] at h
    cases hcompare : k.compare actual with
    | error f => simp [hcompare, liftFault] at h
    | ok passed =>
      cases hmessage : criterionMessage k (some actual) passed with
      | error f => simp [hcompare, liftFault, hmessage, Except.map] at h
      | ok message =>
        simp only [hcompare, liftFault, mapError_ok, ok_bind, hmessage, Except.map,
          Except.ok.injEq] at h
        subst h
        exact ⟨rfl, rfl, rfl, by rw [hfound]; rfl, by simp [resultOn, hfound, hcompare]⟩

inductive VerdictKind where
  | skipped
  | passed
  | vetoed
  | failed
  | error
  deriving DecidableEq, Repr

/-- A checkpoint was read from a definition and run, and its target gave an outcome. -/
structure Ran (g : Gate) (d : Definition) (context : Value) (c : Checkpoint)
    (criteria : List Criterion) (es : Entries) (o : Outcome) : Prop where
  read : ∃ name, d.read = .ok ⟨name, some c⟩
  prepared : prepare c (contextOf context) = .ok (criteria, es)
  outcome : (g.runTarget c criteria es).value.1 = .ok o

/-- The ends of a run, each with its verdict. -/
inductive Ends (g : Gate) (d : Definition) (context : Value) : VerdictKind → Verdict → Prop
  | skipped (name : String) : d.read = .ok ⟨name, none⟩ →
      Ends g d context .skipped (skippedVerdict name)
  | vetoed (c : Checkpoint) (criteria : List Criterion) (es : Entries) (o : Outcome) :
      Ran g d context c criteria es o → o.vetoes ≠ [] →
      Ends g d context .vetoed (vetoVerdict c o)
  | passed (c : Checkpoint) (criteria : List Criterion) (es : Entries) (o : Outcome)
      (results : List CriterionResult) : Ran g d context c criteria es o → o.vetoes = [] →
      List.Forall₂ (Evaluated o es) criteria results → (∀ r ∈ results, r.passed = true) →
      Ends g d context .passed (passedVerdict c o results)
  | failed (c : Checkpoint) (criteria : List Criterion) (es : Entries) (o : Outcome)
      (results : List CriterionResult) : Ran g d context c criteria es o → o.vetoes = [] →
      List.Forall₂ (Evaluated o es) criteria results → ¬ (∀ r ∈ results, r.passed = true) →
      Ends g d context .failed (failedVerdict c o results)
  | error (name : String) (f : Failure) : g.Problem d context f →
      Ends g d context .error (errorVerdict name f).value

variable {g : Gate} {d : Definition} {context : Value} {v : Verdict}

theorem ends_of_judge {c : Checkpoint} {criteria : List Criterion} {es : Entries} {o : Outcome}
    (hran : Ran g d context c criteria es o) (h : (judge c criteria es o).value = .ok v) :
    ∃ kind, Ends g d context kind v := by
  by_cases hvetoes : o.vetoes = []
  · rw [judge_value c criteria es hvetoes] at h
    cases hresults : criteria.mapM (evaluate o es) with
    | error f => simp [hresults] at h
    | ok results =>
      have heach : List.Forall₂ (Evaluated o es) criteria results :=
        (forall₂_of_mapM_ok hresults).imp fun _ _ => evaluated_of_evaluate
      simp only [hresults, ok_bind, criteriaVerdict] at h
      split at h
      · next hall =>
        obtain rfl := Except.ok.inj h
        exact ⟨_, .passed c criteria es o results hran hvetoes heach (List.all_eq_true.mp hall)⟩
      · next hall =>
        split at h
        · obtain rfl := Except.ok.inj h
          have hsome := mt List.all_eq_true.mpr hall
          exact ⟨_, .failed c criteria es o results hran hvetoes heach hsome⟩
        · cases h
  · rw [judge_vetoed c criteria es hvetoes] at h
    obtain rfl := Except.ok.inj h
    exact ⟨_, .vetoed c criteria es o hran hvetoes⟩

theorem ends_of_runCheckpoint {name : String} {c : Checkpoint} (hread : d.read = .ok ⟨name, some c⟩)
    (h : (g.runCheckpoint c (contextOf context)).value.1 = .ok v) :
    ∃ kind, Ends g d context kind v := by
  cases hprepare : prepare c (contextOf context) with
  | error f => simp [runCheckpoint, hprepare] at h
  | ok run =>
    obtain ⟨criteria, es⟩ := run
    rw [runCheckpoint_prepared hprepare] at h
    cases htarget : (g.runTarget c criteria es).value.1 with
    | error f => simp [htarget] at h
    | ok o =>
      rw [htarget, ok_bind] at h
      exact ends_of_judge ⟨⟨name, hread⟩, hprepare, htarget⟩ h

/-- Every run that comes to a verdict ends in one of the five ways. -/
theorem ends_of_execute (h : (g.execute d context).value.1 = .ok v) :
    ∃ kind, Ends g d context kind v := by
  cases hread : d.read with
  | error f =>
    rw [execute_unread hread] at h
    cases hname : d.fallbackName with
    | error f' => simp [hname, Except.map] at h
    | ok name =>
      simp only [hname, Except.map, Except.ok.injEq] at h
      subst h
      exact ⟨_, .error name f (.definition f hread)⟩
  | ok phase =>
    obtain ⟨name, _ | c⟩ := phase
    · have hvalue : (g.execute d context).value.1 = .ok (skippedVerdict name) := by
        simp [execute, hread]
      obtain rfl := Except.ok.inj (hvalue.symm.trans h)
      exact ⟨_, .skipped name hread⟩
    · rw [execute_checkpoint hread] at h
      cases hrun : (g.runCheckpoint c (contextOf context)).value.1 with
      | ok v' =>
        have hsame : v' = v := by simpa [hrun, conclude] using h
        exact hsame ▸ ends_of_runCheckpoint hread hrun
      | error f =>
        rw [hrun, conclude_error] at h
        split at h
        · obtain rfl := Except.ok.inj h
          exact ⟨_, .error c.name f (.checkpoint name c f hread hrun)⟩
        · cases h

/-- A run of a target that gave an outcome ends in no error, and only one outcome is possible. -/
theorem Ran.not_problem {c : Checkpoint} {criteria : List Criterion} {es : Entries} {o : Outcome}
    (hran : Ran g d context c criteria es o) (hvetoes : o.vetoes ≠ []) (f : Failure) :
    ¬ g.Problem d context f := by
  obtain ⟨⟨name, hread⟩, hprepare, htarget⟩ := hran
  rw [problem_checkpoint hread, runCheckpoint_prepared hprepare, htarget, ok_bind,
    judge_vetoed c criteria es hvetoes]
  simp

theorem Ran.unique {c c' : Checkpoint} {criteria criteria' : List Criterion} {es es' : Entries}
    {o o' : Outcome} (h : Ran g d context c criteria es o)
    (h' : Ran g d context c' criteria' es' o') :
    c = c' ∧ criteria = criteria' ∧ es = es' ∧ o = o' := by
  obtain ⟨⟨_, hread⟩, hprepare, htarget⟩ := h
  obtain ⟨⟨_, hread'⟩, hprepare', htarget'⟩ := h'
  obtain rfl := checkpoint_unique hread hread'
  obtain ⟨rfl, rfl⟩ := Prod.mk.inj (Except.ok.inj (hprepare.symm.trans hprepare'))
  exact ⟨rfl, rfl, rfl, Except.ok.inj (htarget.symm.trans htarget')⟩

/-- The flags of a verdict, and what is to be done. -/
structure Marks where
  passed : Bool
  skipped : Bool
  veto : Bool
  error : Bool
  severity : Option Severity
  recommendation : Option Recommendation
  deriving DecidableEq

def Verdict.marks (v : Verdict) : Marks :=
  ⟨v.passed, v.skipped, v.veto, v.error, v.severity, v.recommendation⟩

def VerdictKind.marks : VerdictKind → Marks
  | .skipped => ⟨true, true, false, false, none, none⟩
  | .passed => ⟨true, false, false, false, none, none⟩
  | .vetoed => ⟨false, false, true, false, some .critical, some .fixRequired⟩
  | .failed => ⟨false, false, false, false, some .major, some .reviewAndFix⟩
  | .error => ⟨false, false, false, true, some .critical, some .checkConfiguration⟩

theorem VerdictKind.marks_injective : Function.Injective VerdictKind.marks := by
  intro a b h
  cases a <;> cases b <;> simp_all [marks]

theorem Ends.marks_eq {kind : VerdictKind} (h : Ends g d context kind v) :
    v.marks = kind.marks := by
  cases h <;> rfl

/-- Everything that a verdict of one kind says, and that no other kind does. -/
structure Verdict.HasKind (g : Gate) (d : Definition) (context : Value) (v : Verdict)
    (kind : VerdictKind) : Prop where
  marks_eq : v.marks = kind.marks
  veto_iff : v.veto = true ↔ v.vetoes ≠ []
  unscored : kind = .skipped → v.score = none
  unjudged : kind ≠ .passed → kind ≠ .failed → v.criteria = []
  judged : kind = .passed ∨ kind = .failed → ∃ c criteria es o,
    Ran g d context c criteria es o ∧ List.Forall₂ (Evaluated o es) criteria v.criteria
  passed_iff : kind = .passed ∨ kind = .failed →
    (v.passed = true ↔ ∀ r ∈ v.criteria, r.passed = true)
  stopped : ∀ c criteria es o, Ran g d context c criteria es o → o.vetoes ≠ [] →
    kind = .vetoed ∧ v.vetoes = o.vetoes

theorem Ends.hasKind {kind : VerdictKind} (h : Ends g d context kind v) :
    v.HasKind g d context kind := by
  cases h with
  | skipped name hread =>
    refine ⟨rfl, by simp [skippedVerdict], fun _ => rfl, fun _ _ => rfl, by simp, by simp, ?_⟩
    intro c criteria es o hran _
    obtain ⟨name', hread'⟩ := hran.read
    simp [hread] at hread'
  | vetoed c criteria es o hran hvetoes =>
    refine ⟨rfl, iff_of_true rfl hvetoes, by simp, fun _ _ => rfl, by simp, by simp, ?_⟩
    intro c' criteria' es' o' hran' _
    obtain ⟨-, -, -, rfl⟩ := hran.unique hran'
    exact ⟨rfl, rfl⟩
  | passed c criteria es o results hran hvetoes heach hall =>
    refine ⟨rfl, by simp [passedVerdict, verdictOf], by simp, by simp,
      fun _ => ⟨c, criteria, es, o, hran, heach⟩, fun _ => iff_of_true rfl hall, ?_⟩
    intro c' criteria' es' o' hran' hvetoes'
    obtain ⟨-, -, -, rfl⟩ := hran.unique hran'
    exact absurd hvetoes hvetoes'
  | failed c criteria es o results hran hvetoes heach hsome =>
    refine ⟨rfl, by simp [failedVerdict, verdictOf], by simp, by simp,
      fun _ => ⟨c, criteria, es, o, hran, heach⟩,
      fun _ => iff_of_false (by simp [failedVerdict, verdictOf]) hsome, ?_⟩
    intro c' criteria' es' o' hran' hvetoes'
    obtain ⟨-, -, -, rfl⟩ := hran.unique hran'
    exact absurd hvetoes hvetoes'
  | error name f hproblem =>
    refine ⟨rfl, by simp [errorVerdict], by simp, fun _ _ => rfl, by simp, by simp, ?_⟩
    intro c criteria es o hran hvetoes
    exact absurd hproblem (hran.not_problem hvetoes f)

/-- For every gate, definition and context: a verdict is of exactly one kind, and says what belongs
to that kind. What the target was vetoed for decides whatever the criteria say. -/
theorem execute_verdict_kind (h : (g.execute d context).value.1 = .ok v) :
    ∃! kind, v.HasKind g d context kind := by
  obtain ⟨kind, hends⟩ := ends_of_execute h
  refine ⟨kind, hends.hasKind, ?_⟩
  intro kind' hkind'
  exact VerdictKind.marks_injective (hkind'.marks_eq.symm.trans hends.marks_eq)

/-- A checkpoint with two criteria. -/
def judged : Definition :=
  .value (Value.ofNames
    [("checkpoint", .str "gate"), ("heuristic", .str "PV_BS_001"),
     ("criteria", .list [.str "score >= 0.3", .str "clarity < 2"])])

/-- Of the two criteria the second is met. -/
theorem execute_verdict_kind_judged : ∃ v,
    (({} : Gate).execute judged (Value.ofNames [("clarity", .float 0.5)])).value.1 = .ok v ∧
      v.criteria.map CriterionResult.passed = [false, true] ∧
      ∃! kind, v.HasKind {} judged (Value.ofNames [("clarity", .float 0.5)]) kind := by
  have hjudged :
      (({} : Gate).execute judged (Value.ofNames [("clarity", .float 0.5)])).value.1.toOption.any
        (fun v => v.criteria.map CriterionResult.passed == [false, true]) = true := by
    decide +kernel
  obtain ⟨v, hrun, hcriteria⟩ := any_toOption_iff.mp hjudged
  exact ⟨v, hrun, beq_iff_eq.mp hcriteria, execute_verdict_kind hrun⟩

end Gate

end DecisionGate
