import DecisionGate.Proofs.Effective
import DecisionGate.Proofs.Rationals

/-!
# The ladder of the automation check

With guardrails the automation check recommends in the order of keeping a task manual,
standardizing it, planning its automation and automating it now. A task that is raised, in frequency
or in standardization, moves down on this ladder in one case only: a task that was to be
standardized first is now standardized, and its score reaches neither cut-off for automation. There
is nothing left to recommend then but to keep it manual, although it is ready. Whether this can
happen under a section is decided at the edge of readiness, by the score of a task that is as
frequent as the tipping point and just standardized enough.
-/
namespace DecisionGate

namespace Automation

/-- The place on the ladder; what is recommended for missing guardrails has none. -/
def Recommendation.step? : Recommendation → Option ℕ
  | .keepManual => some 0
  | .standardizeFirst => some 1
  | .planAutomation => some 2
  | .automateNow => some 3
  | .addGuardrails => none
  | .addGuardrailsFirst => none

/-- Two places on the ladder, the second not below the first. -/
def Recommendation.AtMost (r r' : Recommendation) : Prop :=
  ∃ n n', r.step? = some n ∧ r'.step? = some n' ∧ n ≤ n'

/-- What is recommended with guardrails. A task that is not ready is not standardized enough, as
far as it is frequent enough. -/
def rung (automate score : ℚ) (tippingPoint ready : Bool) : Recommendation :=
  if ready then
    if automate ≤ score then .automateNow
    else if 1 / 2 ≤ score then .planAutomation
    else .keepManual
  else if tippingPoint then
    if 1 / 2 ≤ score then .planAutomation else .standardizeFirst
  else .keepManual

variable {automate x y : ℚ} {tippingPoint tippingPoint' ready ready' : Bool}

theorem rung_ready : rung automate x tippingPoint true =
    if automate ≤ x then .automateNow else if 1 / 2 ≤ x then .planAutomation else .keepManual :=
  rfl

theorem rung_frequent : rung automate x true false =
    if 1 / 2 ≤ x then .planAutomation else .standardizeFirst := rfl

theorem keepManual_atMost_rung :
    Recommendation.keepManual.AtMost (rung automate x tippingPoint ready) := by
  have hstep : ∃ n, (rung automate x tippingPoint ready).step? = some n := by
    unfold rung
    split_ifs <;> exact ⟨_, rfl⟩
  obtain ⟨n, hn⟩ := hstep
  exact ⟨0, n, rfl, hn, Nat.zero_le n⟩

theorem rung_ready_atMost (hxy : x ≤ y) :
    (rung automate x tippingPoint true).AtMost (rung automate y tippingPoint' true) := by
  by_cases hautomate : automate ≤ x
  · rw [rung_ready, rung_ready, if_pos hautomate, if_pos (hautomate.trans hxy)]
    exact ⟨3, 3, rfl, rfl, le_rfl⟩
  · by_cases hplan : 1 / 2 ≤ x
    · rw [rung_ready, rung_ready, if_neg hautomate, if_pos hplan, if_pos (hplan.trans hxy)]
      split
      · exact ⟨2, 3, rfl, rfl, by omega⟩
      · exact ⟨2, 2, rfl, rfl, le_rfl⟩
    · rw [rung_ready, if_neg hautomate, if_neg hplan]
      exact keepManual_atMost_rung

theorem rung_frequent_atMost (hxy : x ≤ y) :
    (rung automate x true false).AtMost (rung automate y true false) := by
  rw [rung_frequent, rung_frequent]
  by_cases hplan : 1 / 2 ≤ x
  · rw [if_pos hplan, if_pos (hplan.trans hxy)]
    exact ⟨2, 2, rfl, rfl, le_rfl⟩
  · rw [if_neg hplan]
    split
    · exact ⟨1, 2, rfl, rfl, by omega⟩
    · exact ⟨1, 1, rfl, rfl, le_rfl⟩

/-- A task that gets ready goes up, unless its score is too low for anything that is recommended to
ready tasks. -/
theorem rung_frequent_atMost_or (hxy : x ≤ y) :
    (rung automate x true false).AtMost (rung automate y tippingPoint true) ∨
      rung automate x true false = .standardizeFirst ∧
        rung automate y tippingPoint true = .keepManual ∧ y < min automate (1 / 2) := by
  rw [rung_frequent, rung_ready]
  by_cases hautomate : automate ≤ y
  · rw [if_pos hautomate]
    left
    split
    · exact ⟨2, 3, rfl, rfl, by omega⟩
    · exact ⟨1, 3, rfl, rfl, by omega⟩
  · rw [if_neg hautomate]
    by_cases hplan : 1 / 2 ≤ y
    · rw [if_pos hplan]
      left
      split
      · exact ⟨2, 2, rfl, rfl, le_rfl⟩
      · exact ⟨1, 2, rfl, rfl, by omega⟩
    · have hbelow : ¬ 1 / 2 ≤ x := fun hx => hplan (hx.trans hxy)
      rw [if_neg hplan, if_neg hbelow]
      exact .inr ⟨rfl, rfl, lt_min (not_le.mp hautomate) (not_le.mp hplan)⟩

/-- With a raised score, and the conditions that held before and maybe more, a recommendation goes
down only from standardizing to keeping manual. -/
theorem rung_atMost_or (hxy : x ≤ y) (htipping : tippingPoint = true → tippingPoint' = true)
    (hready : ready = true → ready' = true) :
    (rung automate x tippingPoint ready).AtMost (rung automate y tippingPoint' ready') ∨
      rung automate x tippingPoint ready = .standardizeFirst ∧
        rung automate y tippingPoint' ready' = .keepManual ∧ ready' = true ∧
        y < min automate (1 / 2) := by
  cases ready with
  | true =>
    rw [hready rfl]
    exact .inl (rung_ready_atMost hxy)
  | false =>
    cases tippingPoint with
    | false => exact .inl keepManual_atMost_rung
    | true =>
      rw [htipping rfl]
      cases ready' with
      | false => exact .inl (rung_frequent_atMost hxy)
      | true => simpa using rung_frequent_atMost_or hxy

theorem rung_ready_eq_keepManual_iff :
    rung automate x tippingPoint true = .keepManual ↔ x < min automate (1 / 2) := by
  rw [rung_ready, lt_min_iff, ← not_le, ← not_le]
  by_cases hautomate : automate ≤ x
  · simp [hautomate]
  · by_cases hplan : 1 / 2 ≤ x
    · simp only [hautomate, hplan]
      simp
    · simp only [hautomate, hplan]
      simp

theorem normalize_rat (frequency : ℚ) : normalize frequency = .ok (min (frequency / 20) 1) :=
  embeds_rat.normalize frequency

/-- The score of a task with guardrails. -/
def Settings.scoreAt (s : Settings ℚ) (frequency standardizable : ℚ) : ℚ :=
  mean [(min (frequency / 20) 1, s.frequencyWeight), (standardizable, s.standardizationWeight),
    (1, s.guardrailsWeight)]

theorem recommendationOf_rat {s : Settings ℚ} {score standardizable : ℚ}
    (hready : ready = true ↔ tippingPoint = true ∧ s.standardization ≤ standardizable) :
    recommendationOf s score standardizable tippingPoint ready =
      .ok (rung s.automate score tippingPoint ready) := by
  have hhalf : (0.5 : ℚ) = 1 / 2 := by norm_num
  simp only [recommendationOf, compare_rat, hhalf, ok_bind, Bool.and_eq_true, decide_eq_true_eq]
  cases ready with
  | true =>
    have htipping : tippingPoint = true := (hready.mp rfl).1
    simp only [htipping, and_true, Bool.not_true, Bool.false_eq_true, and_false, if_false,
      rung_ready]
    split
    · rfl
    · split <;> rfl
  | false =>
    cases tippingPoint with
    | false => simp [rung]
    | true =>
      have hlow : standardizable < s.standardization := by simpa using hready
      simp only [hlow, rung_frequent, Bool.false_eq_true, and_false, if_false, and_true,
        Bool.not_false, if_true]
      split <;> rfl

/-- What a check with guardrails comes to without rounding. -/
structure Checks (s : Settings ℚ) (frequency standardizable : ℚ) (c : Check ℚ) : Prop where
  score : c.score = s.scoreAt frequency standardizable
  tippingPoint : c.tippingPoint = true ↔ s.tippingPoint < frequency
  ready : c.ready = true ↔ s.tippingPoint < frequency ∧ s.standardization ≤ standardizable
  recommendation : c.recommendation = rung s.automate c.score c.tippingPoint c.ready

theorem checks_of_assess {s : Settings ℚ} {f st : ℚ} {c : Check ℚ}
    (h : assess s f st true = .ok (.checked c)) : Checks s f st c := by
  rcases assess_split h with ⟨hnone, -⟩ | ⟨-, c', hc, htipping, hx, hscore, hready, hrec⟩
  · cases hnone
  · obtain rfl := Outcome.checked.inj hc
    have hone : (1.0 : ℚ) = 1 := by norm_num
    have hnormalized := Except.ok.inj ((normalize_rat f).symm.trans hx)
    have htipping' : c.tippingPoint = true ↔ s.tippingPoint < f := by
      rw [compare_rat] at htipping
      rw [← Except.ok.inj htipping, decide_eq_true_eq]
    have hready' : c.ready = true ↔ c.tippingPoint = true ∧ s.standardization ≤ st := by
      rw [compare_rat] at hready
      cases htrue : c.tippingPoint with
      | false =>
        rw [htrue] at hready
        simp [← Except.ok.inj hready]
      | true =>
        rw [htrue] at hready
        simp [← Except.ok.inj hready]
    refine ⟨?_, htipping', ?_, ?_⟩
    · rw [← hnormalized, weightedMean_rat, literal_rat, hone] at hscore
      exact (Except.ok.inj hscore).symm
    · rw [hready', htipping']
    · rw [recommendationOf_rat hready'] at hrec
      exact (Except.ok.inj hrec).symm

/-- With guardrails a check always comes to an end. -/
theorem exists_assess (s : Settings ℚ) (f st : ℚ) :
    ∃ c, assess s f st true = .ok (.checked c) := by
  obtain ⟨o, ho, -⟩ : Gives (assess s f st true) fun _ => True :=
    tame_rat.automation_assess ⟨trivial, trivial, trivial⟩ (total_rat _ ▸ gives_ok trivial)
      ⟨trivial, trivial, trivial⟩ trivial trivial true
  rcases assess_cases ho with ⟨hnone, -⟩ | ⟨-, c, rfl, -, -⟩
  · cases hnone
  · exact ⟨c, ho⟩

/-- No weight is negative. -/
structure Settings.Nonneg (s : Settings ℚ) : Prop where
  frequency : 0 ≤ s.frequencyWeight
  standardization : 0 ≤ s.standardizationWeight
  guardrails : 0 ≤ s.guardrailsWeight

variable {s : Settings ℚ}

theorem Settings.Nonneg.scoreAt_le (hs : s.Nonneg) {f f' st st' : ℚ} (hf : f ≤ f')
    (hst : st ≤ st') : s.scoreAt f st ≤ s.scoreAt f' st' := by
  have hnormalized : min (f / 20) 1 ≤ min (f' / 20) 1 :=
    min_le_min_right 1 (div_le_div_of_nonneg_right hf (by norm_num))
  apply Raised.mean_le
  simp [Raised, hnormalized, hst, hs.frequency, hs.standardization, hs.guardrails]

/-- A raised task is recommended no less, or it was to be standardized first and is to be kept
manual now, being ready with a score below both cut-offs. -/
theorem Checks.atMost_or {f f' st st' : ℚ} {c c' : Check ℚ} (h : Checks s f st c)
    (h' : Checks s f' st' c') (hs : s.Nonneg) (hf : f ≤ f') (hst : st ≤ st') :
    c.recommendation.AtMost c'.recommendation ∨
      c.recommendation = .standardizeFirst ∧ c'.recommendation = .keepManual ∧
        c'.ready = true ∧ c'.score < min s.automate (1 / 2) := by
  rw [h.recommendation, h'.recommendation]
  apply rung_atMost_or
  · rw [h.score, h'.score]
    exact hs.scoreAt_le hf hst
  · rw [h.tippingPoint, h'.tippingPoint]
    exact (lt_of_lt_of_le · hf)
  · rw [h.ready, h'.ready]
    exact fun hready => ⟨hready.1.trans_le hf, hready.2.trans hst⟩

theorem Checks.keepManual_iff {f st : ℚ} {c : Check ℚ} (h : Checks s f st c)
    (hready : c.ready = true) :
    c.recommendation = .keepManual ↔ c.score < min s.automate (1 / 2) := by
  rw [h.recommendation, hready, rung_ready_eq_keepManual_iff]

/-- Raising a task never moves its recommendation down. -/
def Improves (s : Settings ℚ) : Prop :=
  ∀ f f' st st' c c', 0 ≤ f → Exact.IsUnit st → Exact.IsUnit st' → f ≤ f' → st ≤ st' →
    assess s f st true = .ok (.checked c) → assess s f' st' true = .ok (.checked c') →
    c.recommendation.AtMost c'.recommendation

/-- A task that is ready is never to be kept manual. -/
def IsConsistent (s : Settings ℚ) : Prop :=
  ∀ f st c, 0 ≤ f → Exact.IsUnit st → assess s f st true = .ok (.checked c) →
    c.ready = true → c.recommendation ≠ .keepManual

/-- The score that all ready tasks are above or at, as near as they come. -/
def Settings.edge (s : Settings ℚ) : ℚ := s.scoreAt s.tippingPoint s.standardization

theorem improves_of_isConsistent (hs : s.Nonneg) (h : IsConsistent s) : Improves s := by
  intro f f' st st' c c' hf _ hunit hff hst hc hc'
  rcases (checks_of_assess hc).atMost_or (checks_of_assess hc') hs hff hst with
    hle | ⟨-, hmanual, hready, -⟩
  · exact hle
  · exact absurd hmanual (h f' st' c' (hf.trans hff) hunit hc' hready)

/-- The score of a task that is a little more frequent is a little greater at most. -/
theorem Settings.Nonneg.scoreAt_add_le (hs : s.Nonneg) (f st : ℚ) {d : ℚ} (hd : 0 ≤ d) :
    s.scoreAt (f + d) st ≤ s.scoreAt f st + d / 20 := by
  have hnormalized : min ((f + d) / 20) 1 ≤ min (f / 20) 1 + d / 20 := by
    rw [add_div, min_add]
    exact min_le_min_left _ (le_add_of_nonneg_right (by positivity))
  simp only [scoreAt, mean, List.map_cons, List.map_nil, List.sum_cons, List.sum_nil, add_zero]
  have hfrequency : s.frequencyWeight ≤
      s.frequencyWeight + (s.standardizationWeight + s.guardrailsWeight) :=
    le_add_of_nonneg_right (add_nonneg hs.standardization hs.guardrails)
  generalize s.frequencyWeight + (s.standardizationWeight + s.guardrailsWeight) = weight
    at hfrequency
  split
  · linarith
  · next hpos =>
    have hpos : 0 < weight := not_le.mp hpos
    rw [div_add' _ _ _ hpos.ne', div_le_div_iff_of_pos_right hpos]
    have hstep := mul_le_mul_of_nonneg_right hnormalized hs.frequency
    have hweight : d / 20 * s.frequencyWeight ≤ d / 20 * weight :=
      mul_le_mul_of_nonneg_left hfrequency (by positivity)
    linarith

/-- No ready task is kept manual exactly when the edge of readiness is not below both cut-offs. A
ready task is beyond the tipping point, so at the edge itself there is none. -/
theorem isConsistent_iff (hs : s.Nonneg) (htipping : 0 ≤ s.tippingPoint)
    (hstandardization : Exact.IsUnit s.standardization) :
    IsConsistent s ↔ min s.automate (1 / 2) ≤ s.edge := by
  constructor
  · intro h
    by_contra hbelow
    have hgap : 0 < min s.automate (1 / 2) - s.edge := sub_pos.mpr (not_le.mp hbelow)
    have hd : 0 < 10 * (min s.automate (1 / 2) - s.edge) := by positivity
    obtain ⟨c, hc⟩ := exists_assess s (s.tippingPoint + 10 * (min s.automate (1 / 2) - s.edge))
      s.standardization
    have hchecks := checks_of_assess hc
    have hready : c.ready = true := hchecks.ready.mpr ⟨lt_add_of_pos_right _ hd, le_rfl⟩
    refine h _ _ c (by positivity) hstandardization hc hready ?_
    rw [hchecks.keepManual_iff hready, hchecks.score]
    have hnear := hs.scoreAt_add_le s.tippingPoint s.standardization hd.le
    have hedge : s.scoreAt s.tippingPoint s.standardization = s.edge := rfl
    linarith
  · intro h f st c _ _ hc hready
    have hchecks := checks_of_assess hc
    rw [Ne, hchecks.keepManual_iff hready, hchecks.score, not_lt]
    obtain ⟨hf, hst⟩ := hchecks.ready.mp hready
    exact h.trans (hs.scoreAt_le hf.le hst)

end Automation

namespace Config

/-- Every default passes its own check. -/
theorem checkThreshold_default {b : Builtin} {p : String × Value}
    (hp : p ∈ defaultThresholds b) :
    checkThreshold b (.str p.1) (default b .thresholds p.1) = .ok none := by
  have hall : (defaultThresholds b).all (fun p =>
      (checkThreshold b (.str p.1) (default b .thresholds p.1)).toOption.any Option.isNone) =
        true := by
    cases b <;> decide +kernel
  obtain ⟨r, hr, hnone⟩ := any_toOption_iff.mp (List.all_eq_true.mp hall p hp)
  rw [hr, Option.isNone_iff_eq_none.mp hnone]

theorem ofNumber_of_rational? {v : Value} {n : Number} {q : ℚ} (hn : number? v = some n)
    (hq : v.rational? = some q) : Exact.ofNumber n = .rational q := by
  rw [Value.rational?, value_number? hn, Option.map_some] at hq
  cases hexact : Exact.ofNumber n with
  | rational p =>
    rw [hexact] at hq
    exact congrArg Exact.rational (Option.some.inj hq)
  | _ => simp [hexact] at hq

theorem rational?_of_quantity? {v : Value} {q : ℚ} (h : quantity? v = some (.rational q)) :
    v.rational? = some q := by
  obtain ⟨n, hn, hexact⟩ := number?_of_quantity? h
  rw [Value.rational?, value_number? hn, Option.map_some, hexact]

section
variable {config hs : Entries} (h : Accepts (.map config) hs) {b : Builtin}
include h

/-- The thresholds that count pass the check, the defaults among them. -/
theorem Accepts.checkThreshold_parameter {p : String × Value} (hp : p ∈ defaultThresholds b) :
    Config.checkThreshold b (.str p.1)
      (parameter (sectionOf config b.id) b .thresholds p.1) = .ok none := by
  obtain ⟨es, hes, -, heach⟩ := h.thresholds b
  rcases parameter_cases hes p.1 with hconfigured | habsent
  · exact heach _ (mem_of_get? hconfigured)
  · rw [habsent]
    exact checkThreshold_default hp

theorem Accepts.weight_nonneg {w : Value} {q : ℚ} (hw : w ∈ b.weights (sectionOf config b.id))
    (hq : w.rational? = some q) : 0 ≤ q := by
  obtain ⟨n, hn, hlow⟩ := h.effective_weight hw
  simpa using (Exact.not_lt_int (ofNumber_of_rational? hn hq) 0).mp hlow

theorem Accepts.threshold_isUnit {p : String × Value} (hp : p ∈ defaultThresholds b)
    (hname : p.1 ≠ "tipping_point") {q : ℚ}
    (hq : (parameter (sectionOf config b.id) b .thresholds p.1).rational? = some q) :
    Exact.IsUnit q := by
  obtain ⟨n, hn, hcase⟩ := checkThreshold_eq_none (h.checkThreshold_parameter hp)
  rw [if_neg (by simpa [Key.sameAs] using hname)] at hcase
  have hexact := ofNumber_of_rational? hn hq
  have hlow := (Exact.not_lt_int hexact 0).mp hcase.1
  have hhigh := (Exact.not_gt_int hexact 1).mp hcase.2
  exact ⟨by simpa using hlow, by simpa using hhigh⟩

theorem Accepts.one_le_tippingPoint {q : ℚ}
    (hq : (parameter (sectionOf config Builtin.automationCheck.id) .automationCheck .thresholds
      "tipping_point").rational? = some q) : 1 ≤ q := by
  have hp : ("tipping_point", Value.int 2) ∈ defaultThresholds .automationCheck :=
    List.mem_cons_self
  obtain ⟨n, hn, hcase⟩ := checkThreshold_eq_none (h.checkThreshold_parameter hp)
  rw [if_pos (by simp [Key.sameAs])] at hcase
  simpa using (Exact.not_lt_int (ofNumber_of_rational? hn hq) 1).mp hcase.1

end

/-- The section of the automation check comes to these numbers. -/
def Automates (config : Entries) (s : Automation.Settings ℚ) : Prop :=
  (Automation.settings (sectionOf config Builtin.automationCheck.id)).map Value.rational? =
    s.map some

theorem Accepts.automation_bounds {config hs : Entries} (h : Accepts (.map config) hs)
    {s : Automation.Settings ℚ} (hs : Automates config s) :
    s.Nonneg ∧ 1 ≤ s.tippingPoint ∧ Exact.IsUnit s.standardization := by
  simp only [Automates, Automation.Settings.map, Automation.settings,
    Automation.Settings.mk.injEq] at hs
  obtain ⟨hfrequency, hstandardization, hguardrails, htipping, hthreshold, -⟩ := hs
  refine ⟨⟨?_, ?_, ?_⟩, h.one_le_tippingPoint htipping, ?_⟩
  · exact h.weight_nonneg (b := .automationCheck) (by simp [Builtin.weights, defaultWeights])
      hfrequency
  · exact h.weight_nonneg (b := .automationCheck) (by simp [Builtin.weights, defaultWeights])
      hstandardization
  · exact h.weight_nonneg (b := .automationCheck) (by simp [Builtin.weights, defaultWeights])
      hguardrails
  · exact h.threshold_isUnit (b := .automationCheck) (p := ("standardization", .float 0.7))
      (by simp [defaultThresholds]) (by decide) hthreshold

open Automation in
/-- Under an accepted configuration a task that is raised moves down in one case only, from
standardizing to keeping manual, and a ready task is kept manual exactly when its score is below
both cut-offs. Neither ever happens exactly when the edge of readiness is not below both. -/
theorem raised_task_recommendation {config : Entries} (h : check (.map config) = .ok [])
    {s : Automation.Settings ℚ} (hs : Automates config s) :
    (∀ f st, ∃ c, assess s f st true = .ok (.checked c)) ∧
    (∀ f f' st st' c c', f ≤ f' → st ≤ st' → assess s f st true = .ok (.checked c) →
      assess s f' st' true = .ok (.checked c') →
      c.recommendation.AtMost c'.recommendation ∨
        c.recommendation = .standardizeFirst ∧ c'.recommendation = .keepManual ∧
          c'.ready = true ∧ c'.score < min s.automate (1 / 2)) ∧
    (∀ f st c, assess s f st true = .ok (.checked c) → c.ready = true →
      (c.recommendation = .keepManual ↔ c.score < min s.automate (1 / 2))) ∧
    (Improves s ∧ IsConsistent s ↔ min s.automate (1 / 2) ≤ s.edge) := by
  obtain ⟨_, haccepts⟩ := accepts_of_check h
  obtain ⟨hnonneg, htipping, hunit⟩ := haccepts.automation_bounds hs
  have hedge := isConsistent_iff hnonneg (zero_le_one.trans htipping) hunit
  refine ⟨exists_assess s, ?_, ?_, ?_⟩
  · intro f f' st st' c c' hf hst hc hc'
    exact (checks_of_assess hc).atMost_or (checks_of_assess hc') hnonneg hf hst
  · intro f st c hc hready
    exact (checks_of_assess hc).keepManual_iff hready
  · rw [← hedge]
    exact ⟨And.right, fun hconsistent =>
      ⟨improves_of_isConsistent hnonneg hconsistent, hconsistent⟩⟩

theorem rational?_of_parts {x : Float} {m : Nat} {e : Int} {q : ℚ}
    (hparts : Double.parts x = .finite false m e) (hq : (m : ℚ) * 2 ^ e = q) :
    (Value.float x).rational? = some q :=
  rational?_of_quantity? (quantity?_of_parts hparts hq)

theorem rational?_standardization :
    (Value.float 0.7).rational? = some (6305039478318694 / 2 ^ 53) :=
  rational?_of_parts (m := 6305039478318694) (e := -53) (by decide +kernel) (by norm_num)

theorem rational?_automate : (Value.float 0.75).rational? = some (3 / 4) :=
  rational?_of_parts (m := 6755399441055744) (e := -53) (by decide +kernel) (by norm_num)

def defaultAutomation : Automation.Settings ℚ where
  frequencyWeight := 6305039478318694 / 2 ^ 53
  standardizationWeight := 8106479329266893 / 2 ^ 53
  guardrailsWeight := 1
  tippingPoint := 2
  standardization := 6305039478318694 / 2 ^ 53
  automate := 3 / 4

theorem automates_default : Automates defaultEntries defaultAutomation := by
  have hstandardizationWeight :
      (Value.float 0.9).rational? = some (8106479329266893 / 2 ^ 53) :=
    rational?_of_parts (m := 8106479329266893) (e := -53) (by decide +kernel) (by norm_num)
  have hguardrailsWeight : (Value.float 1.0).rational? = some 1 :=
    rational?_of_parts (m := 2 ^ 52) (e := -52) (by decide +kernel) (by norm_num)
  show Automation.Settings.mk ((Value.float 0.7).rational?) ((Value.float 0.9).rational?)
    ((Value.float 1.0).rational?) ((Value.int 2).rational?) ((Value.float 0.7).rational?)
    ((Value.float 0.75).rational?) = _
  rw [rational?_standardization, hstandardizationWeight, hguardrailsWeight, rational?_automate]
  rfl

/-- Under the defaults the edge of readiness is above one half. -/
theorem raised_task_recommendation_default :
    check (.map defaultEntries) = .ok [] ∧ Automates defaultEntries defaultAutomation ∧
      Automation.Improves defaultAutomation ∧ Automation.IsConsistent defaultAutomation := by
  have h : check (.map defaultEntries) = .ok [] := check_eq_nil_of_isEmpty (by decide +kernel)
  obtain ⟨-, -, -, hedge⟩ := raised_task_recommendation h automates_default
  refine ⟨h, automates_default, hedge.mpr ?_⟩
  norm_num [Automation.Settings.edge, Automation.Settings.scoreAt, mean, defaultAutomation]

def frequencyOnly : Entries :=
  Entries.ofNames [("frequency", .int 1), ("standardization", .int 0), ("guardrails", .int 0)]

def frequencySettings : Automation.Settings ℚ where
  frequencyWeight := 1
  standardizationWeight := 0
  guardrailsWeight := 0
  tippingPoint := 2
  standardization := 6305039478318694 / 2 ^ 53
  automate := 3 / 4

theorem automates_frequencyOnly :
    Automates (documentWith .automationCheck frequencyOnly) frequencySettings := by
  show Automation.Settings.mk ((Value.int 1).rational?) ((Value.int 0).rational?)
    ((Value.int 0).rational?) ((Value.int 2).rational?) ((Value.float 0.7).rational?)
    ((Value.float 0.75).rational?) = _
  rw [rational?_standardization, rational?_automate]
  rfl

theorem scoreAt_frequencySettings (standardizable : ℚ) :
    frequencySettings.scoreAt 3 standardizable = 3 / 20 := by
  norm_num [Automation.Settings.scoreAt, mean, frequencySettings]

open Automation in
/-- Raised in standardization, a task that was to be standardized first is kept manual, although it
is ready. -/
theorem raised_task_kept_manual :
    check (.map (documentWith .automationCheck frequencyOnly)) = .ok [] ∧
      Automates (documentWith .automationCheck frequencyOnly) frequencySettings ∧
      ∃ c c', assess frequencySettings 3 (3 / 5) true = .ok (.checked c) ∧
        assess frequencySettings 3 (4 / 5) true = .ok (.checked c') ∧
        c.recommendation = .standardizeFirst ∧ c'.recommendation = .keepManual ∧
        c'.ready = true ∧ ¬ c.recommendation.AtMost c'.recommendation := by
  refine ⟨check_eq_nil_of_isEmpty (by decide +kernel), automates_frequencyOnly, ?_⟩
  obtain ⟨c, hc⟩ := exists_assess frequencySettings 3 (3 / 5)
  obtain ⟨c', hc'⟩ := exists_assess frequencySettings 3 (4 / 5)
  have hchecks := checks_of_assess hc
  have hchecks' := checks_of_assess hc'
  have htipping : c.tippingPoint = true :=
    hchecks.tippingPoint.mpr (by norm_num [frequencySettings])
  have hready : c.ready = false := by
    rw [Bool.eq_false_iff, Ne, hchecks.ready]
    norm_num [frequencySettings]
  have hready' : c'.ready = true := hchecks'.ready.mpr (by norm_num [frequencySettings])
  have hrecommendation : c.recommendation = .standardizeFirst := by
    rw [hchecks.recommendation, htipping, hready, hchecks.score, scoreAt_frequencySettings,
      rung_frequent, if_neg (by norm_num)]
  have hmanual : c'.recommendation = .keepManual := by
    rw [hchecks'.keepManual_iff hready', hchecks'.score, scoreAt_frequencySettings]
    norm_num [frequencySettings]
  refine ⟨c, c', hc, hc', hrecommendation, hmanual, hready', ?_⟩
  rw [hrecommendation, hmanual]
  rintro ⟨n, n', hn, hn', hle⟩
  obtain rfl := Option.some.inj hn
  obtain rfl := Option.some.inj hn'
  omega

end Config
end DecisionGate
