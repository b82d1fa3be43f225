import DecisionGate.Proofs.Parsing
import DecisionGate.Proofs.Vetoes

/-!
# Criteria in another order, and more criteria

A checkpoint passes when its target is not vetoed and every criterion is met. A criterion that is a
floor acts twice when beliefs are scored: every floor is a condition on the least score, and the
first one is also the limit below which a dimension is vetoed. That makes no difference to what
passes. Where all floors are met the least score is at none of them too low, so neither is any other
score, whichever floor comes first. Hence what passes with some criteria passes with fewer of them
and in any order, and one more never lets pass what did not; only the first floor can, when it takes
the place of the usual limit.
-/
namespace DecisionGate

namespace Exact

/-- What is less than something is less than all that compares with it and is not less. -/
theorem compare_lt_of_lt {a b c : Exact} {o : Ordering} (hab : a.compare b = some .lt)
    (hcb : c.compare b = some o) (ho : o ≠ .lt) : a.compare c = some .lt := by
  cases a with
  | nan => cases hab
  | infinite s =>
    cases b with
    | nan => cases hab
    | infinite t => cases c <;> grind [Exact.compare]
    | rational q => cases c <;> grind [Exact.compare]
  | rational p =>
    cases b with
    | nan => cases hab
    | infinite t => cases c <;> grind [Exact.compare]
    | rational q =>
      cases c with
      | nan => cases hcb
      | infinite t => grind [Exact.compare]
      | rational r =>
        simp only [Exact.compare, Option.some.injEq] at hab hcb ⊢
        rw [← hcb, ne_eq, cmp_eq_lt_iff, not_lt] at ho
        rw [cmp_eq_lt_iff] at hab ⊢
        exact hab.trans_le ho

theorem float_lt_irrefl (x : Float) : ¬ x < x := by
  rw [float_lt_iff]
  cases ofDouble x <;> simp [Exact.compare]

theorem float_lt_trans {x y z : Float} (hxy : x < y) (hyz : y < z) : x < z := by
  rw [float_lt_iff] at *
  refine compare_lt_of_lt (o := .gt) hxy ?_ (by decide)
  rw [← compare_swap, hyz]
  rfl

theorem float_lt_of_ge {x m t : Float} (hxt : x < t)
    (hmt : (Number.float m).compare .ge (.float t) = true) : x < m := by
  rw [float_lt_iff] at *
  rw [Number.compare, order_eq] at hmt
  cases h : (ofNumber (.float m)).compare (ofNumber (.float t)) with
  | none => simp [h] at hmt
  | some o =>
    rw [h] at hmt
    exact compare_lt_of_lt hxt h (by simpa [Comparison.holds] using hmt)
end Exact

namespace Gate

open Criteria (Criterion)

/-- A fold that keeps the lesser of two doubles ends at its start or below it, and no double that it
met is less than its end. -/
theorem foldl_least (xs : List Float) (a : Float) :
    let r := xs.foldl (fun acc y => if y < acc then y else acc) a
    (r = a ∨ r < a) ∧ ∀ x ∈ xs, ¬ x < r := by
  induction xs generalizing a with
  | nil => exact ⟨.inl rfl, nofun⟩
  | cons y ys ih =>
    obtain ⟨hr, hrest⟩ := ih (if y < a then y else a)
    rw [List.foldl_cons]
    -- NaN compares with nothing, so the bound says of each double that it is not less than the end.
    generalize ys.foldl _ _ = r at hr hrest
    by_cases hy : y < a
    · rw [if_pos hy] at hr
      rcases hr with rfl | hr
      · exact ⟨.inr hy, List.forall_mem_cons.mpr ⟨Exact.float_lt_irrefl r, hrest⟩⟩
      · have hnot : ¬ y < r := fun h => Exact.float_lt_irrefl y (Exact.float_lt_trans h hr)
        exact ⟨.inr (Exact.float_lt_trans hr hy), List.forall_mem_cons.mpr ⟨hnot, hrest⟩⟩
    · rw [if_neg hy] at hr
      rcases hr with rfl | hr
      · exact ⟨.inl rfl, List.forall_mem_cons.mpr ⟨hy, hrest⟩⟩
      · have hnot : ¬ y < r := fun h => hy (Exact.float_lt_trans h hr)
        exact ⟨.inr hr, List.forall_mem_cons.mpr ⟨hnot, hrest⟩⟩

/-- No score is less than the least one. NaN is neither less nor greater, so this is all that can be
said. -/
theorem not_lt_least? {xs : List Float} {m : Float} (h : least? xs = some m) :
    ∀ x ∈ xs, ¬ x < m := by
  cases xs with
  | nil => cases h
  | cons a xs =>
    obtain rfl := Option.some.inj h
    obtain ⟨hr, hrest⟩ := foldl_least xs a
    refine List.forall_mem_cons.mpr ⟨fun hlt => ?_, hrest⟩
    rcases hr with hr | hr
    · rw [hr] at hlt
      exact Exact.float_lt_irrefl a hlt
    · exact Exact.float_lt_irrefl a (Exact.float_lt_trans hlt hr)

/-- The entry of a text. -/
def textItem (text : String) : Criteria.Item := .value (.str text)

/-- The checkpoint with texts for its criteria. -/
def Checkpoint.withTexts (c : Checkpoint) (texts : List String) : Checkpoint :=
  { c with criteria := texts.map textItem }

/-- A text that sets a floor for the dimensions. -/
def IsFloor (text : String) : Prop :=
  ∃ subject numeral, Criteria.Reads text (.floor subject numeral)

theorem matches_of_parse {text : String} {k : Criterion} (h : Criteria.parse text = .ok k) :
    ∃ f, Criteria.Reads text f ∧ Criteria.Matches (String.ofList (Text.trim text.toList)) f k := by
  obtain ⟨f, hf⟩ := Criteria.reads_of_parse h
  obtain ⟨k', hk', hmatches⟩ := Criteria.parse_of_reads hf
  obtain rfl := Except.ok.inj (h.symm.trans hk')
  exact ⟨f, hf, hmatches⟩

theorem isFloor_iff {text : String} {k : Criterion} (h : Criteria.parse text = .ok k) :
    IsFloor text ↔ k.kind = .floor := by
  obtain ⟨f, hf, hmatches⟩ := matches_of_parse h
  rw [hmatches.kind]
  constructor
  · rintro ⟨subject, numeral, hfloor⟩
    obtain rfl := hf.unique hfloor
    rfl
  · intro hkind
    cases f with
    | floor subject numeral => exact ⟨subject, numeral, hf⟩
    | comparison => cases hkind
    | presence => cases hkind

/-- A floor that was read from a text compares with a number. -/
theorem floor_of_parse {text : String} {k : Criterion} (h : Criteria.parse text = .ok k)
    (hkind : k.kind = .floor) : k.operator = .ge ∧ ∃ t, k.threshold = some t := by
  obtain ⟨f, -, hmatches⟩ := matches_of_parse h
  rw [hmatches.kind] at hkind
  cases f with
  | floor subject numeral =>
    obtain ⟨t, ht, -⟩ := hmatches.threshold
    exact ⟨hmatches.operator, t, ht⟩
  | comparison => cases hkind
  | presence => cases hkind

/-- Entries are read when each of them is. -/
theorem parseAll_eq_ok {items : List Criteria.Item} {ks : List Criterion} :
    Criteria.parseAll items = .ok ks ↔ items.map Criteria.Item.parse = ks.map .ok := by
  unfold Criteria.parseAll
  simp only
  generalize items.map Criteria.Item.parse = results
  induction results generalizing ks with
  | nil => simp [eq_comm]
  | cons r results ih =>
    cases r with
    | error p => cases ks <;> simp
    | ok k =>
      cases ks with
      | nil => split <;> simp_all
      | cons k' ks =>
        have hrest := @ih ks
        simp only [List.filterMap_cons_none, List.map_cons, List.cons.injEq] at hrest ⊢
        rw [← hrest]
        split <;> simp_all

/-- Criteria that are read from texts, each from one of them. -/
structure ReadFrom (texts : List String) (ks : List Criterion) : Prop where
  parsed : ∀ text ∈ texts, ∃ k ∈ ks, Criteria.parse text = .ok k
  source : ∀ k ∈ ks, ∃ text ∈ texts, Criteria.parse text = .ok k

theorem readFrom_of_parseAll {texts : List String} {ks : List Criterion}
    (h : Criteria.parseAll (texts.map textItem) = .ok ks) : ReadFrom texts ks := by
  rw [parseAll_eq_ok, List.map_map] at h
  constructor
  · intro text htext
    have hmem : Criteria.parse text ∈ ks.map Except.ok := h ▸ List.mem_map_of_mem htext
    obtain ⟨k, hk, heq⟩ := List.mem_map.mp hmem
    exact ⟨k, hk, heq.symm⟩
  · intro k hk
    have hmem : Except.ok k ∈ texts.map (Criteria.Item.parse ∘ textItem) := by
      rw [h]
      exact List.mem_map_of_mem hk
    obtain ⟨text, htext, heq⟩ := List.mem_map.mp hmem
    exact ⟨text, htext, heq⟩

theorem exists_parseAll {texts : List String}
    (h : ∀ text ∈ texts, ∃ k, Criteria.parse text = .ok k) :
    ∃ ks, Criteria.parseAll (texts.map textItem) = .ok ks := by
  induction texts with
  | nil => exact ⟨[], rfl⟩
  | cons text texts ih =>
    obtain ⟨hfirst, hrest⟩ := List.forall_mem_cons.mp h
    obtain ⟨k, hk⟩ := hfirst
    obtain ⟨ks, hks⟩ := ih hrest
    refine ⟨k :: ks, parseAll_eq_ok.mpr ?_⟩
    rw [List.map_cons, List.map_cons, List.map_cons, parseAll_eq_ok.mp hks]
    exact congrArg (· :: _) hk

theorem isReportable_text {text : String} {k : Criterion} (h : Criteria.parse text = .ok k) :
    (textItem text).isReportable = true := by
  have hparse : (textItem text).parse = .ok k := h
  unfold Criteria.Item.isReportable
  rw [hparse]
  rfl

/-- A value is found for a criterion, and it is enough. -/
def Met (o : Outcome) (es : Entries) (k : Criterion) : Prop :=
  ∃ actual, resolve? o es k = some actual ∧ k.compare actual = .ok true

theorem met_iff_of_evaluated {o : Outcome} {es : Entries} {ks : List Criterion}
    {results : List CriterionResult} (h : List.Forall₂ (Evaluated o es) ks results) :
    (∀ r ∈ results, r.passed = true) ↔ ∀ k ∈ ks, Met o es k := by
  induction h with
  | nil => simp
  | cons hfirst _ ih => rw [List.forall_mem_cons, List.forall_mem_cons, ih, hfirst.passed, Met]

section
variable {g : Gate} {d : Definition} {context : Value} {name : String} {c : Checkpoint}
  {ks : List Criterion} {es : Entries} {o : Outcome} {v : Verdict}

/-- A target that gave an outcome without a veto ends in no error that is reported. -/
theorem Ran.not_problem_of_unvetoed (hran : Ran g d context c ks es o) (hvetoes : o.vetoes = [])
    {f : Failure} (h : g.Problem d context f) : f.isDomain = false := by
  obtain ⟨⟨name, hread⟩, hprepare, htarget⟩ := hran
  rw [problem_checkpoint hread, runCheckpoint_prepared hprepare, htarget, ok_bind,
    judge_value c ks es hvetoes] at h
  exact foreign_bind (foreign_mapM (evaluate_foreign o es)) (criteriaVerdict_foreign c o) f h

/-- A verdict passes exactly when the target was not vetoed and every criterion is met. -/
theorem passed_iff (hread : d.read = .ok ⟨name, some c⟩)
    (hv : (g.execute d context).value.1 = .ok v) :
    v.passed = true ↔
      ∃ ks es o, Ran g d context c ks es o ∧ o.vetoes = [] ∧ ∀ k ∈ ks, Met o es k := by
  obtain ⟨kind, hends⟩ := ends_of_execute hv
  cases hends with
  | skipped name' hread' => simp [hread] at hread'
  | vetoed c' ks o es hran hvetoes =>
    refine iff_of_false (by simp [vetoVerdict, verdictOf]) ?_
    rintro ⟨ks', es', o', hran', hnone, -⟩
    obtain ⟨-, -, -, rfl⟩ := hran.unique hran'
    exact hvetoes hnone
  | passed c' ks es o results hran hvetoes heach hall =>
    obtain ⟨name', hread'⟩ := hran.read
    obtain rfl := checkpoint_unique hread hread'
    exact iff_of_true rfl ⟨ks, es, o, hran, hvetoes, (met_iff_of_evaluated heach).mp hall⟩
  | failed c' ks es o results hran hvetoes heach hsome =>
    refine iff_of_false (by simp [failedVerdict, verdictOf]) ?_
    rintro ⟨ks', es', o', hran', -, hmet⟩
    obtain ⟨-, rfl, rfl, rfl⟩ := hran.unique hran'
    exact hsome ((met_iff_of_evaluated heach).mpr hmet)
  | error name' f hproblem =>
    refine iff_of_false (by simp [errorVerdict]) ?_
    rintro ⟨ks, es, o, hran, hvetoes, -⟩
    have hforeign := hran.not_problem_of_unvetoed hvetoes hproblem
    rw [execute_checkpoint hread, (problem_checkpoint hread).mp hproblem, conclude_error, hforeign]
      at hv
    cases hv

end

/-- Whether the target scores the dimensions of beliefs. -/
def Checkpoint.ScoresDimensions (c : Checkpoint) : Prop :=
  ∃ name, c.target = .validator name ∧ checkTable.lookup name = some .beliefs

/-- The scores of the dimensions and the vetoes that come before them. -/
def scored (g : Gate) (c : Checkpoint) (context : Entries) :
    Except Failure (List Veto × List (String × Float)) :=
  match givenScores context, context.get? "content" with
  | .null, some content =>
    (g.validator.validate content .null .null .null).value.1.map fun result =>
      (if result.veto && g.vetoEnabled then [beliefVeto result] else [],
        result.levels.map fun (l, s) => (l.key, s.score))
  | provided, _ => (providedDimensions c provided).map fun dimensions => ([], dimensions)

section
variable {g : Gate} {c : Checkpoint} {es : Entries}

theorem runBeliefs_scored (ks : List Criterion) :
    (g.runBeliefs c ks es).value.1 =
      (g.scored c es).map fun p => dimensionOutcome (leastDimension c ks) p.1 p.2 := by
  unfold runBeliefs
  simp only
  split
  · next content hnull hcontent =>
    have hnull : givenScores es = .null := hnull
    simp only [scored, hnull, hcontent, Report.value_bind, Report.value_pure]
    cases (g.validator.validate content .null .null .null).value.1 <;> rfl
  · next hother =>
    have hscored : g.scored c es =
        (providedDimensions c (givenScores es)).map fun dimensions => ([], dimensions) := by
      unfold scored
      split
      · next content hnull hcontent => exact absurd hcontent (hother content hnull)
      · rfl
    rw [hscored]
    change (providedDimensions c (givenScores es)).map _ = _
    cases providedDimensions c (givenScores es) <;> rfl

/-- The scores of the dimensions do not depend on the criteria, only the limit for them does. -/
theorem runTarget_dimensions (h : c.ScoresDimensions) (ks : List Criterion) :
    (g.runTarget c ks es).value.1 =
      (g.scored c es).map fun p => dimensionOutcome (leastDimension c ks) p.1 p.2 := by
  obtain ⟨name, htarget, hcheck⟩ := h
  simp only [runTarget, htarget, hcheck, Report.value_bind, Report.value_pure]
  exact runBeliefs_scored ks

/-- Every other target takes no notice of the criteria. -/
theorem runTarget_other (h : ¬ c.ScoresDimensions) (ks ks' : List Criterion) :
    (g.runTarget c ks es).value.1 = (g.runTarget c ks' es).value.1 := by
  unfold runTarget
  cases htarget : c.target with
  | heuristic id => rfl
  | validator name =>
    simp only
    cases hcheck : checkTable.lookup name with
    | none => rfl
    | some check =>
      cases check with
      | beliefs => exact absurd ⟨name, htarget, hcheck⟩ h
      | tasks => rfl

theorem runTarget_withTexts (texts : List String) (ks : List Criterion) :
    g.runTarget (c.withTexts texts) ks es = g.runTarget c ks es := rfl

theorem dimensionOutcome_vetoes_eq_nil {least : Float} {vetoes : List Veto}
    {dimensions : List (String × Float)} :
    (dimensionOutcome least vetoes dimensions).vetoes = [] ↔
      vetoes = [] ∧ ∀ x ∈ dimensions.map Prod.snd, ¬ x < least := by
  simp only [dimensionOutcome, List.append_eq_nil_iff, List.filterMap_eq_nil_iff,
    List.forall_mem_map, dimensionVeto, ite_eq_right_iff, reduceCtorEq, imp_false]

/-- The limit for the dimensions is no criterion's business but for the vetoes. -/
theorem met_dimensionOutcome {least least' : Float} {vetoes vetoes' : List Veto}
    {dimensions : List (String × Float)} {k : Criterion} :
    Met (dimensionOutcome least vetoes dimensions) es k ↔
      Met (dimensionOutcome least' vetoes' dimensions) es k := Iff.rfl

/-- A floor that is met lies above no score. -/
theorem not_lt_of_met {least t : Float} {vetoes : List Veto} {dimensions : List (String × Float)}
    {k : Criterion} (h : Met (dimensionOutcome least vetoes dimensions) es k)
    (hkind : k.kind = .floor) (hoperator : k.operator = .ge) (ht : k.threshold = some t) :
    ∀ x ∈ dimensions.map Prod.snd, ¬ x < t := by
  obtain ⟨actual, hactual, hcompare⟩ := h
  have hleast : resolve? (dimensionOutcome least vetoes dimensions) es k =
      (least? (dimensions.map Prod.snd)).map .float := by
    simp [resolve?, asksLeast, hkind, dimensionOutcome]
  rw [hleast] at hactual
  obtain ⟨m, hm, rfl⟩ := Option.map_eq_some_iff.mp hactual
  have hge : (Number.float m).compare .ge (.float t) = true := by
    simpa [Criterion.compare, hoperator, ht, Value.isNumber, Value.number?] using hcompare
  exact fun x hx hlt => not_lt_least? hm x hx (Exact.float_lt_of_ge hlt hge)

end

section
variable {g : Gate} {d d' : Definition} {context : Value} {name name' : String} {c : Checkpoint}
  {texts texts' : List String} {ks ks' : List Criterion} {es : Entries} {v v' : Verdict}

theorem ReadFrom.exists_floor_iff (h : ReadFrom texts ks) :
    (∃ text ∈ texts, IsFloor text) ↔ ∃ k ∈ ks, k.kind = .floor := by
  constructor
  · rintro ⟨text, htext, hfloor⟩
    obtain ⟨k, hk, hparse⟩ := h.parsed text htext
    exact ⟨k, hk, (isFloor_iff hparse).mp hfloor⟩
  · rintro ⟨k, hk, hkind⟩
    obtain ⟨text, htext, hparse⟩ := h.source k hk
    exact ⟨text, htext, (isFloor_iff hparse).mpr hkind⟩

theorem ReadFrom.subset (h : ReadFrom texts ks) (h' : ReadFrom texts' ks') (hsub : texts' ⊆ texts) :
    ks' ⊆ ks := by
  intro k hk
  obtain ⟨text, htext, hparse⟩ := h'.source k hk
  obtain ⟨k', hk', hparse'⟩ := h.parsed text (hsub htext)
  obtain rfl := Except.ok.inj (hparse.symm.trans hparse')
  exact hk'

/-- A part of some texts can be read where all of them can. -/
theorem prepare_subset (h : prepare (c.withTexts texts) context = .ok (ks, es))
    (hsub : texts' ⊆ texts) :
    ∃ ks', prepare (c.withTexts texts') context = .ok (ks', es) ∧
      ReadFrom texts ks ∧ ReadFrom texts' ks' := by
  obtain ⟨hcontext, -, hparse⟩ := prepare_eq_ok.mp h
  have hfrom := readFrom_of_parseAll hparse
  have heach : ∀ text ∈ texts', ∃ k, Criteria.parse text = .ok k := by
    intro text htext
    obtain ⟨k, -, hk⟩ := hfrom.parsed text (hsub htext)
    exact ⟨k, hk⟩
  obtain ⟨ks', hks'⟩ := exists_parseAll heach
  have hreportable : (texts'.map textItem).all Criteria.Item.isReportable = true := by
    simp only [List.all_map, List.all_eq_true]
    intro text htext
    obtain ⟨k, hk⟩ := heach text htext
    exact isReportable_text hk
  exact ⟨ks', prepare_eq_ok.mpr ⟨hcontext, hreportable, hks'⟩, hfrom, readFrom_of_parseAll hks'⟩

/-- Where every floor is met, no score is below the limit that a part of the criteria sets, unless
the part has lost all the floors. -/
theorem not_lt_leastDimension {vetoes : List Veto} {dimensions : List (String × Float)}
    (hfrom : ReadFrom texts ks)
    (hnot : ∀ x ∈ dimensions.map Prod.snd, ¬ x < leastDimension c ks)
    (hmet : ∀ k ∈ ks, Met (dimensionOutcome (leastDimension c ks) vetoes dimensions) es k)
    (hsub : ks' ⊆ ks)
    (hfloors : c.leastDimension = none → (∃ k ∈ ks, k.kind = .floor) →
      ∃ k ∈ ks', k.kind = .floor) :
    ∀ x ∈ dimensions.map Prod.snd, ¬ x < leastDimension c ks' := by
  cases hown : c.leastDimension with
  | some limit => simpa only [leastDimension, hown] using hnot
  | none =>
    cases hfirst : ks'.find? fun k => k.kind = .floor with
    | some floor =>
      -- This floor need not be the first one of all the criteria, but it is met as they all are.
      have hfloor : floor ∈ ks := hsub (List.mem_of_find?_eq_some hfirst)
      have hkind : floor.kind = .floor := by simpa using List.find?_some hfirst
      obtain ⟨text, -, hparse⟩ := hfrom.source floor hfloor
      obtain ⟨hoperator, t, ht⟩ := floor_of_parse hparse hkind
      simp only [leastDimension, hown, hfirst, ht, Option.getD_some]
      exact not_lt_of_met (hmet floor hfloor) hkind hoperator ht
    | none =>
      have hwithout : ¬ ∃ k ∈ ks', k.kind = .floor := by simpa using hfirst
      have hnone : (ks.find? fun k => k.kind = .floor) = none := by
        simpa using mt (hfloors hown) hwithout
      simpa only [leastDimension, hown, hfirst, hnone] using hnot

/-- What passes with some texts passes with a part of them, unless the part has lost all the floors
where they set the limit for dimensions. -/
theorem passed_of_subset (hread : d.read = .ok ⟨name, some (c.withTexts texts)⟩)
    (hread' : d'.read = .ok ⟨name', some (c.withTexts texts')⟩)
    (hv : (g.execute d context).value.1 = .ok v) (hv' : (g.execute d' context).value.1 = .ok v')
    (hpassed : v.passed = true) (hsub : texts' ⊆ texts)
    (hfloors : c.ScoresDimensions → c.leastDimension = none → (∃ text ∈ texts, IsFloor text) →
      ∃ text ∈ texts', IsFloor text) : v'.passed = true := by
  obtain ⟨ks, es, o, ⟨-, hprepared, houtcome⟩, hvetoes, hmet⟩ := (passed_iff hread hv).mp hpassed
  obtain ⟨ks', hprepared', hfrom, hfrom'⟩ := prepare_subset hprepared hsub
  have hpart : ks' ⊆ ks := hfrom.subset hfrom' hsub
  rw [hfrom.exists_floor_iff, hfrom'.exists_floor_iff] at hfloors
  rw [runTarget_withTexts] at houtcome
  -- Only where dimensions are scored do the criteria reach the target at all.
  by_cases hscores : c.ScoresDimensions
  · rw [runTarget_dimensions hscores] at houtcome
    obtain ⟨⟨vetoes, dimensions⟩, hscored, rfl⟩ := map_eq_ok.mp houtcome
    obtain ⟨hnone, hnot⟩ := dimensionOutcome_vetoes_eq_nil.mp hvetoes
    have houtcome' : (g.runTarget (c.withTexts texts') ks' es).value.1 =
        .ok (dimensionOutcome (leastDimension c ks') vetoes dimensions) := by
      rw [runTarget_withTexts, runTarget_dimensions hscores, hscored]
      rfl
    have hnot' := not_lt_leastDimension hfrom hnot hmet hpart (hfloors hscores)
    refine (passed_iff hread' hv').mpr ⟨ks', es, _, ⟨⟨_, hread'⟩, hprepared', houtcome'⟩,
      dimensionOutcome_vetoes_eq_nil.mpr ⟨hnone, hnot'⟩, fun k hk => ?_⟩
    exact met_dimensionOutcome.mp (hmet k (hpart hk))
  · rw [runTarget_other hscores ks ks'] at houtcome
    exact (passed_iff hread' hv').mpr ⟨ks', es, o, ⟨⟨_, hread'⟩, hprepared', houtcome⟩, hvetoes,
      fun k hk => hmet k (hpart hk)⟩

/-- The order of the criteria makes no difference to what passes, and one more lets nothing pass
that did not, unless it is the first floor where the floors set the limit for dimensions. -/
theorem execute_rearranged (hread : d.read = .ok ⟨name, some (c.withTexts texts)⟩)
    (hread' : d'.read = .ok ⟨name', some (c.withTexts texts')⟩)
    (hv : (g.execute d context).value.1 = .ok v) (hv' : (g.execute d' context).value.1 = .ok v') :
    (texts.Perm texts' → v'.passed = v.passed) ∧
      ∀ text, texts' = texts ++ [text] → v.passed = false → v'.passed = true →
        c.ScoresDimensions ∧ c.leastDimension = none ∧ IsFloor text ∧
          ∀ earlier ∈ texts, ¬ IsFloor earlier := by
  constructor
  · intro hperm
    have hfloors : (∃ text ∈ texts, IsFloor text) ↔ ∃ text ∈ texts', IsFloor text := by
      simp only [hperm.mem_iff]
    rw [Bool.eq_iff_iff]
    constructor
    · exact fun hpassed => passed_of_subset hread' hread hv' hv hpassed hperm.subset
        fun _ _ => hfloors.mpr
    · exact fun hpassed => passed_of_subset hread hread' hv hv' hpassed hperm.symm.subset
        fun _ _ => hfloors.mp
  · rintro text rfl hfailed hpassed
    by_contra hother
    have hfloors : c.ScoresDimensions → c.leastDimension = none →
        (∃ t ∈ texts ++ [text], IsFloor t) → ∃ t ∈ texts, IsFloor t := by
      rintro hscores hown ⟨t, ht, hfloor⟩
      by_contra hnone
      rcases List.mem_append.mp ht with ht | ht
      · exact hnone ⟨t, ht, hfloor⟩
      · obtain rfl := List.mem_singleton.mp ht
        exact hother ⟨hscores, hown, hfloor, fun e he h => hnone ⟨e, he, h⟩⟩
    have hstill := passed_of_subset hread' hread hv' hv hpassed
      (List.subset_append_left texts [text]) hfloors
    simp [hstill] at hfailed

end

/-- A checkpoint that scores the usual dimensions. -/
def beliefCheckpoint : Checkpoint := { name := "gate", target := .validator Check.beliefs.name }

/-- A score below the usual limit. -/
def fiveForCoherence : Value :=
  Value.ofNames [("axiom_scores", Value.ofNames [("Coherence", .int 5)])]

/-- A gate's verdict on that score. -/
def rateFive (texts : List String) : Except Failure Verdict :=
  (({} : Gate).execute (.checkpoint (beliefCheckpoint.withTexts texts)) fiveForCoherence).value.1

theorem exists_of_rateFive (texts : List String) (passed : Bool)
    (h : (rateFive texts).toOption.map Verdict.passed = some passed) :
    ∃ v, rateFive texts = .ok v ∧ v.passed = passed := by
  cases hv : rateFive texts with
  | error f => simp [hv, Except.toOption] at h
  | ok v => exact ⟨v, rfl, by simpa [hv, Except.toOption] using h⟩

set_option maxRecDepth 100000 in
theorem execute_rearranged_floors :
    (∃ v v', rateFive ["no dimension below 4", "no dimension below 5"] = .ok v ∧
      rateFive ["no dimension below 5", "no dimension below 4"] = .ok v' ∧
      v.passed = true ∧ v'.passed = v.passed) ∧
    ∃ v v', rateFive [] = .ok v ∧ rateFive ["no dimension below 5"] = .ok v' ∧
      v.passed = false ∧ v'.passed = true ∧ IsFloor "no dimension below 5" := by
  constructor
  · obtain ⟨v, hv, hpassed⟩ := exists_of_rateFive
      ["no dimension below 4", "no dimension below 5"] true (by decide +kernel)
    obtain ⟨v', hv', -⟩ := exists_of_rateFive
      ["no dimension below 5", "no dimension below 4"] true (by decide +kernel)
    exact ⟨v, v', hv, hv', hpassed, (execute_rearranged rfl rfl hv hv').1 (.swap _ _ _)⟩
  · obtain ⟨v, hv, hfailed⟩ := exists_of_rateFive [] false (by decide +kernel)
    obtain ⟨v', hv', hpassed⟩ := exists_of_rateFive ["no dimension below 5"] true
      (by decide +kernel)
    obtain ⟨-, -, hfloor, -⟩ :=
      (execute_rearranged rfl rfl hv hv').2 "no dimension below 5" rfl hfailed hpassed
    exact ⟨v, v', hv, hv', hfailed, hpassed, hfloor⟩

end Gate
end DecisionGate
