import DecisionGate.Proofs.Report

/-!
# Criteria that cannot be judged

Criteria are looked at once the target has given its outcome, and a failure among them is never one
of the library's own. This module says exactly which criteria fail: those that ask whether an
integer too large for a double equals something, and those on whose value a message is due that
cannot be written.
-/
namespace DecisionGate.Gate

open Criteria (Criterion)

/-- A criterion that has no verdict on a value, or none that can be put into words. -/
def Unjudgeable (k : Criterion) (actual : Value) : Prop :=
  k.operator = .eq ∧ k.threshold.isSome = true ∧ TooLarge actual ∨
    actual.hasText = false ∧ (k.kind = .presence → k.compare actual = .ok false)

/-- Only equality needs a double. -/
theorem compare_fails (k : Criterion) (actual : Value) :
    Fails (k.compare actual) ↔
      k.operator = .eq ∧ k.threshold.isSome = true ∧ TooLarge actual := by
  cases hop : k.operator with
  | eq =>
    cases hnumber : actual.isNumber with
    | true =>
      obtain ⟨n, hn⟩ := number?_of_isNumber hnumber
      cases ht : k.threshold with
      | none => simp [Criterion.compare, hop, hnumber, ht]
      | some t => simp [Criterion.compare, hop, hnumber, hn, ht, fails_toDouble hnumber hn]
    | false => simp [Criterion.compare, hop, hnumber, not_tooLarge hnumber]
  | present => simp [Criterion.compare, hop]
  | ge | gt | le | lt =>
    simp only [Criterion.compare, hop]
    split <;> simp

theorem criterionMessage_fails (k : Criterion) (actual : Value) (passed : Bool) :
    Fails (criterionMessage k (some actual) passed) ↔
      k.kind ≠ .presence ∧ actual.hasText = false := by
  simp only [criterionMessage]
  split
  · next hkind => simp [hkind]
  · next hkind => simp [hkind, shown_fails]

theorem criterionMessage_foreign (k : Criterion) (found : Option Value) (passed : Bool) :
    Foreign (criterionMessage k found passed) := by
  cases found with
  | none => exact foreign_ok _
  | some actual =>
    simp only [criterionMessage]
    split
    · exact foreign_ok _
    · exact foreign_map (shown_foreign actual)

theorem evaluate_missing {o : Outcome} {context : Entries} {k : Criterion}
    (h : resolve? o context k = none) :
    ∃ r, evaluate o context k = .ok r ∧ r.actual = .null := by
  simp only [evaluate, h, criterionMessage, ok_bind]
  exact ⟨_, rfl, rfl⟩

/-- The result on a value that was found, with a message. -/
def resultOn (k : Criterion) (actual : Value) (passed : Bool) (message : String) :
    CriterionResult where
  criterion := k.label
  field := k.field
  passed := passed
  actual := actual
  expected := k.expected
  message := some message

theorem evaluate_found {o : Outcome} {context : Entries} {k : Criterion} {actual : Value}
    (h : resolve? o context k = some actual) :
    evaluate o context k = liftFault (k.compare actual) >>= fun passed =>
      (criterionMessage k (some actual) passed).map (resultOn k actual passed) := by
  simp only [evaluate, h]
  cases k.compare actual with
  | error f => rfl
  | ok passed =>
    simp only [liftFault, mapError_ok, ok_bind]
    cases criterionMessage k (some actual) passed <;> rfl

theorem evaluate_foreign (o : Outcome) (context : Entries) (k : Criterion) :
    Foreign (evaluate o context k) := by
  cases h : resolve? o context k with
  | none =>
    obtain ⟨r, hr, -⟩ := evaluate_missing h
    simp [hr]
  | some actual =>
    rw [evaluate_found h]
    exact foreign_bind (liftFault_foreign _) fun passed =>
      foreign_map (criterionMessage_foreign k _ passed)

/-- A criterion fails, or it is one that the feedback has to show and cannot. -/
def Hidden (r : Except Failure CriterionResult) : Prop :=
  Fails r ∨ ∃ a, r = .ok a ∧ a.passed = false ∧ a.actual.hasText = false

theorem evaluate_hidden (o : Outcome) (context : Entries) (k : Criterion) :
    Hidden (evaluate o context k) ↔
      ∃ actual, resolve? o context k = some actual ∧ Unjudgeable k actual := by
  cases h : resolve? o context k with
  | none =>
    obtain ⟨r, hr, hactual⟩ := evaluate_missing h
    simp [Hidden, hr, hactual, Value.hasText]
  | some actual =>
    rw [evaluate_found h]
    have hlarge := compare_fails k actual
    cases hcompare : k.compare actual with
    | error f =>
      have hfails : Fails (k.compare actual) := ⟨f, hcompare⟩
      simp [Hidden, liftFault, Unjudgeable, hlarge.mp hfails]
    | ok passed =>
      have hsmall : ¬ (k.operator = .eq ∧ k.threshold.isSome = true ∧ TooLarge actual) := by
        intro hl
        simpa [hcompare] using hlarge.mpr hl
      have hmessage := criterionMessage_fails k actual passed
      simp only [liftFault, mapError_ok, ok_bind, Option.some.injEq, exists_eq_left',
        Unjudgeable, hsmall, false_or, hcompare, Except.ok.injEq]
      cases hm : criterionMessage k (some actual) passed with
      | error f =>
        obtain ⟨hkind, htext⟩ := hmessage.mp ⟨f, hm⟩
        simp [Hidden, Except.map, hkind, htext]
      | ok message =>
        have hshown : k.kind ≠ .presence → actual.hasText = true := by
          intro hkind
          have hnot : ¬ Fails (criterionMessage k (some actual) passed) := by simp [hm]
          simpa [hkind] using mt hmessage.mpr hnot
        simp only [Hidden, Except.map, resultOn, not_fails_ok, false_or, Except.ok.injEq,
          exists_eq_left']
        constructor
        · intro hx
          obtain ⟨hpassed, htext⟩ := hx
          exact ⟨htext, fun _ => hpassed⟩
        · intro hx
          obtain ⟨htext, hpassed⟩ := hx
          refine ⟨hpassed ?_, htext⟩
          refine Classical.byContradiction fun hkind => ?_
          simp [hshown hkind] at htext

theorem criteriaVerdict_foreign (c : Checkpoint) (o : Outcome) (results : List CriterionResult) :
    Foreign (criteriaVerdict c o results) := by
  unfold criteriaVerdict
  split
  · exact foreign_ok _
  · split
    · exact foreign_ok _
    · simp [Failure.isDomain]

/-- Only the feedback on a failed criterion shows what was found for it. -/
theorem criteriaVerdict_fails (c : Checkpoint) (o : Outcome) (results : List CriterionResult) :
    Fails (criteriaVerdict c o results) ↔
      ∃ r ∈ results, r.passed = false ∧ r.actual.hasText = false := by
  unfold criteriaVerdict
  split
  · next hall =>
    simp only [List.all_eq_true] at hall
    simp only [not_fails_ok, false_iff, not_exists, not_and]
    intro r hr hpassed
    simp [hall r hr] at hpassed
  · split
    · next hshown =>
      simp only [List.all_eq_true, Bool.or_eq_true] at hshown
      simp only [not_fails_ok, false_iff, not_exists, not_and]
      intro r hr hpassed htext
      simpa [hpassed, htext] using hshown r hr
    · next hshown =>
      simpa using hshown

theorem judge_value (c : Checkpoint) (criteria : List Criterion) (context : Entries)
    {o : Outcome} (h : o.vetoes = []) :
    (judge c criteria context o).value =
      criteria.mapM (evaluate o context) >>= criteriaVerdict c o := by
  simp only [judge, h, List.isEmpty_nil, if_true, Report.value_pure]
  rfl

/-- All criteria together escape exactly when one of them cannot be judged. -/
theorem judge_escapes (c : Checkpoint) (criteria : List Criterion) (context : Entries)
    {o : Outcome} (h : o.vetoes = []) :
    Escapes (judge c criteria context o).value ↔
      ∃ k ∈ criteria, ∃ actual, resolve? o context k = some actual ∧ Unjudgeable k actual := by
  have hforeign : Foreign (criteria.mapM (evaluate o context) >>= criteriaVerdict c o) :=
    foreign_bind (foreign_mapM (evaluate_foreign o context)) (criteriaVerdict_foreign c o)
  rw [judge_value c criteria context h, escapes_iff_fails hforeign]
  -- A criterion either fails on its own, or its result makes the feedback fail.
  simp only [← evaluate_hidden]
  cases hresults : criteria.mapM (evaluate o context) with
  | error f =>
    obtain ⟨k, hk, hfails⟩ := fails_mapM.mp ⟨f, hresults⟩
    simp only [error_bind, fails_error, true_iff]
    exact ⟨k, hk, .inl hfails⟩
  | ok results =>
    have hok : ∀ k ∈ criteria, ¬ Fails (evaluate o context k) := by
      intro k hk hfails
      have := fails_mapM.mpr ⟨k, hk, hfails⟩
      simp [hresults] at this
    rw [ok_bind, criteriaVerdict_fails]
    constructor
    · intro hx
      obtain ⟨r, hr, hbad⟩ := hx
      obtain ⟨k, hk, heval⟩ := (mem_of_mapM_ok hresults r).mp hr
      exact ⟨k, hk, .inr ⟨r, heval, hbad⟩⟩
    · intro hx
      obtain ⟨k, hk, hfails | ⟨r, heval, hbad⟩⟩ := hx
      · exact absurd hfails (hok k hk)
      · exact ⟨r, (mem_of_mapM_ok hresults r).mpr ⟨k, hk, heval⟩, hbad⟩

theorem judge_vetoed (c : Checkpoint) (criteria : List Criterion) (context : Entries)
    {o : Outcome} (h : o.vetoes ≠ []) :
    (judge c criteria context o).value = .ok (vetoVerdict c o) := by
  have hempty : o.vetoes.isEmpty = false := by simpa using h
  simp [judge, hempty]

end DecisionGate.Gate
